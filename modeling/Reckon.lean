import Reckon.Batch
import Reckon.Command.Plan
import Reckon.Http.Server
import Reckon.Main
import Reckon.Settings.File
import Reckon.Workspace
import Reckon.Proofs.Cursor
import Reckon.Proofs.Eval.Kind
import Reckon.Proofs.Lexer.LongestMatch
import Reckon.Proofs.Parser.FirstProblem
import Reckon.Proofs.Parser.Grammar
import Reckon.Proofs.Parser.Reset
import Reckon.Proofs.Service.Isolation
import Reckon.Proofs.Service.Leftovers
import Reckon.Proofs.Session.Atomicity
import Reckon.Proofs.Session.Refinement
import Reckon.Proofs.Transcript
import Reckon.Proofs.Service.Limit
import Reckon.Proofs.Eval.Staging
import Reckon.Proofs.Lexer.Layout
import Reckon.Proofs.Parser.Blanks
import Reckon.Proofs.Text.OneLine
import Reckon.Proofs.Parser.Places
import Reckon.Proofs.Session.Messages
import Reckon.Proofs.Http.WrittenForms
import Reckon.Proofs.Service.FrontEnds
import Reckon.Proofs.Lexer.Coverage
import Reckon.Proofs.Parser.Brackets
import Reckon.Proofs.Session.Independence
import Reckon.Proofs.Parser.Reuse
import Reckon.Proofs.Eval.Exact
import Reckon.Proofs.Decimal.Sign
import Reckon.Proofs.Parser.Names
import Reckon.Proofs.Parser.Trees
import Reckon.Proofs.Parser.Dump
import Reckon.Proofs.Session.ReadBack
import Reckon.Proofs.Session.PrintedNumbers
import Reckon.Proofs.Command.Flags
import Reckon.Proofs.Service.Resolution
import Reckon.Proofs.Service.Results
import Reckon.Proofs.Decimal.Integral
import Reckon.Proofs.Decimal.Nearest
import Reckon.Proofs.Decimal.Shortest
import Reckon.Proofs.Decimal.Written
import Reckon.Proofs.Eval.Equality
import Reckon.Proofs.Lexer.Answers
import Reckon.Proofs.Lexer.Boundaries
import Reckon.Proofs.Logging
import Reckon.Proofs.Parser.Requests
