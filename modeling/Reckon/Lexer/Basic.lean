import Reckon.Cursor
import Reckon.Lexer.Error
import Reckon.Text.Digit
import Reckon.Text.Letter
import Reckon.Token

/-!
# Cutting an equation into tokens

A lexer walks over an equation and hands out one token at a time (`Lexer.next`). At the end it
hands out the end token again and again; once it has failed it fails again in the same way.

An equation has at most one `=` or `==`. A number is a run of ASCII digits and points that starts
with a digit and does not end in a point; an identifier is a letter followed by letters and
decimal digits of any script. Blanks and tabs between tokens are skipped on demand; otherwise, like
every character outside the alphabet, they are an error.

`remaining_next_lt` is the reason why everything that reads tokens ends: a token other than the
end leaves less to read.
-/

namespace Reckon

/-- A reader of tokens in the middle of an equation. -/
structure Lexer where
  cursor : Cursor
  /-- The byte offset where the current token starts. -/
  start : Nat
  /-- How many `=` and `==` have been handed out. -/
  equals : Nat
  /-- Whether blanks and tabs between tokens are skipped. -/
  skipBlanks : Bool
  /-- The failure that ended the reading. -/
  failure : Option LexError

namespace Lexer

/-- A reader at the start of an equation. -/
def ofText (skipBlanks : Bool) (equation : Text) : Lexer :=
  ⟨Cursor.ofText equation, 0, 0, skipBlanks, none⟩

/-- How many bytes are still to be read. -/
def remaining (l : Lexer) : Nat := l.cursor.ahead.length

/-- The token that stands for a failure. -/
def errorToken (l : Lexer) (e : LexError) : Token := ⟨.error, e.message, l.start⟩

/-- A blank between tokens. -/
def isSkipped (c : Char) : Bool := c == ' ' || c == '\t'

/-- A character of a number. -/
def isNumberChar (c : Char) : Bool := c.isDigit || c == '.'

/-- A character of an identifier after the first one. -/
def isNameChar (c : Char) : Bool := Text.isLetter c || Text.isDecimalDigit c

/-- The tokens of a single character, `=` apart. -/
def single? : Char → Option TokenKind
  | '(' => some .leftParen
  | ')' => some .rightParen
  | '+' => some .plus
  | '-' => some .minus
  | '*' => some .times
  | '/' => some .divide
  | _ => none

/-- Hands out the token that ends at the given place. -/
def emit (l : Lexer) (kind : TokenKind) (c : Cursor) : Except LexError Token × Lexer :=
  (.ok ⟨kind, c.since l.start, l.start⟩, { l with cursor := c, start := c.pos })

/-- Fails now and from now on. -/
def fail (l : Lexer) (c : Cursor) (e : LexError) : Except LexError Token × Lexer :=
  (.error e, { l with cursor := c, failure := some e })

/-- Reads `=` or `==`. -/
def readEquals (l : Lexer) (c : Cursor) : Except LexError Token × Lexer :=
  if 0 < l.equals then l.fail c (.duplicateEquals c.pos)
  else
    let l := { l with equals := l.equals + 1 }
    match c.next.2.accept (· == '=') with
    | (true, after) => l.emit .equal after
    | (false, after) => l.emit .assign after

/-- Reads a number. -/
def readNumber (l : Lexer) (c : Cursor) : Except LexError Token × Lexer :=
  let after := c.acceptRun isNumberChar
  let digits := after.since l.start
  if digits.getLast? == some '.'.toUInt8 then l.fail after (.trailingDot (after.pos - 1))
  else if digits.contains '.'.toUInt8 then l.emit .float after
  else l.emit .int after

/-- Reads a token that starts right here. -/
def readToken (l : Lexer) : Except LexError Token × Lexer :=
  match l.cursor.peek with
  | (none, c) => l.emit .eof c
  | (some char, c) =>
    if char == '=' then l.readEquals c
    else if char.isDigit then l.readNumber c
    else if Text.isLetter char then l.emit .identifier (c.acceptRun isNameChar)
    else
      match single? char with
      | some kind => l.emit kind c.next.2
      | none => l.fail c (.symbol c.pos char)

/-- Moves over blanks and tabs, if they are to be skipped. -/
def skip (l : Lexer) : Lexer :=
  if l.skipBlanks then
    let c := l.cursor.acceptRun isSkipped
    { l with cursor := c, start := c.pos }
  else l

/-- Hands out the next token. -/
def next (l : Lexer) : Except LexError Token × Lexer :=
  match l.failure with
  | some e => (.error e, l)
  | none => l.skip.readToken

/-! ### Reading makes progress -/

@[simp]
theorem remaining_emit (l : Lexer) (kind : TokenKind) (c : Cursor) :
    (l.emit kind c).2.remaining = c.ahead.length := rfl

@[simp]
theorem remaining_fail (l : Lexer) (c : Cursor) (e : LexError) :
    (l.fail c e).2.remaining = c.ahead.length := rfl

/-- Reading `=` or `==` takes at least the first sign. -/
theorem remaining_readEquals {l : Lexer} {c after : Cursor} {r : Char}
    (h : c.next = (some r, after)) :
    (l.readEquals c).1.isOk → (l.readEquals c).2.remaining < c.ahead.length := by
  have hnext := Cursor.ahead_next_lt h
  have haccept := Cursor.ahead_accept_le (· == '=') after
  unfold readEquals
  split
  · simp [fail, remaining, Except.isOk, Except.toBool]
  · rw [h]
    dsimp only
    split <;> rename_i hc <;> rw [hc] at haccept <;> simp at haccept ⊢ <;> omega

/-- Reading a number takes at least its first digit. -/
theorem remaining_readNumber {l : Lexer} {c after : Cursor} {r : Char}
    (h : c.next = (some r, after)) (hr : r.isDigit = true) :
    (l.readNumber c).2.remaining < c.ahead.length := by
  have := Cursor.ahead_acceptRun_lt h (by simp [isNumberChar, hr] : isNumberChar r = true)
  unfold readNumber
  dsimp only
  split
  · simpa
  · split <;> simpa

/-- Reading a token other than the end leaves less to read. -/
theorem remaining_readToken {l : Lexer} {t : Token} (ht : l.readToken.1 = .ok t)
    (hk : t.kind ≠ .eof) : l.readToken.2.remaining < l.remaining := by
  unfold readToken at ht ⊢
  rcases hp : l.cursor.peek with ⟨_ | char, c⟩
  · rw [hp] at ht
    cases ht
    exact absurd rfl hk
  · -- The place is where it was, so the next character is the one that was seen.
    obtain ⟨after, hnext⟩ : ∃ after, l.cursor.next = (some char, after) := by
      refine ⟨l.cursor.next.2, ?_⟩
      have : l.cursor.next.1 = some char := congrArg Prod.fst hp
      rw [← this]
    have hc : c = l.cursor := by
      have : l.cursor.next.2.back = c := congrArg Prod.snd hp
      rw [hnext] at this
      rw [← this]
      exact Cursor.back_next hnext
    subst hc
    have hlt := Cursor.ahead_next_lt hnext
    rw [hp] at ht
    revert ht
    dsimp only
    split
    · exact fun ht => remaining_readEquals hnext (by rw [ht]; rfl)
    · split
      · rename_i hd
        exact fun _ => remaining_readNumber hnext hd
      · split
        · rename_i hl
          exact fun _ => Cursor.ahead_acceptRun_lt hnext (by simp [isNameChar, hl])
        · split
          · rw [hnext]
            exact fun _ => hlt
          · exact fun ht => by cases ht

/-- Skipping blanks leaves no more to read. -/
theorem remaining_skip_le (l : Lexer) : l.skip.remaining ≤ l.remaining := by
  unfold skip
  split
  · exact Cursor.ahead_acceptRun_le _ _
  · exact Nat.le_refl _

/-- Handing out a token other than the end leaves less to read. -/
theorem remaining_next_lt {l : Lexer} {t : Token} (h : l.next.1 = .ok t) (hk : t.kind ≠ .eof) :
    l.next.2.remaining < l.remaining := by
  unfold next at h ⊢
  split at h
  · contradiction
  · exact Nat.lt_of_lt_of_le (remaining_readToken h hk) (remaining_skip_le l)

theorem remaining_lt_of_next {l after : Lexer} {t : Token} (h : l.next = (.ok t, after))
    (hk : t.kind ≠ .eof) : after.remaining < l.remaining := by
  have hless := remaining_next_lt (congrArg Prod.fst h) hk
  rwa [h] at hless

/-! ### Whole equations -/

/-- The tokens from here to the end, the end token included, and the failure that cut them
short. -/
def drain (l : Lexer) : List Token × Option LexError :=
  match _h : l.next with
  | (.error e, _) => ([], some e)
  | (.ok t, after) =>
    if _hk : t.kind = .eof then ([t], none)
    else
      let (tokens, failure) := after.drain
      (t :: tokens, failure)
termination_by l.remaining
decreasing_by
  have := remaining_next_lt (congrArg Prod.fst _h) _hk
  rwa [_h] at this

/-- The tokens of an equation, and the failure that cut them short. -/
def tokenize (skipBlanks : Bool) (equation : Text) : List Token × Option LexError :=
  (ofText skipBlanks equation).drain

end Lexer

end Reckon
