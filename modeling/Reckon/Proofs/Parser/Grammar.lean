import Reckon.Proofs.Parser.Literal
import Reckon.Proofs.Parser.Reading

/-!
# The parser reads exactly its grammar

`Derives phrase tokens tree` is the grammar of `Reckon.Parser.Basic` rule by rule. A phrase above
the factors is a chain: a first part and any number of links, each an operator with a part after
it. Its tree is the one of the first part with the links folded onto it from the left.

`parse_eq_ok_iff` says that a text is read as a tree if and only if its tokens derive this tree and
all its numbers can be represented. As the parser has one answer for a text, no other tree can be
derived from these tokens.

* A tree that is read is derived (`derived_of_reads`). Between two operators, what has been folded
  so far is derived at a level `c` and the next operator has at most the power `c + 1`.
* A tree that is derived is read (`readsAs_of_derives`). Where the next token cannot go on with the
  phrase, an expression of any lower power starts with the whole phrase.
-/

namespace Reckon

/-! ### The grammar -/

/-- What the grammar speaks of, from the loosest to the tightest. -/
inductive Phrase where
  | equation
  | expression
  | term
  | factor
deriving DecidableEq, Repr

namespace Phrase

/-- The operators of a chain. -/
def operators : Phrase → List TokenKind
  | equation => [.assign, .equal]
  | expression => [.plus, .minus]
  | term => [.times, .divide]
  | factor => []

/-- What the operators of a chain stand between. -/
def part? : Phrase → Option Phrase
  | equation => some expression
  | expression => some term
  | term => some factor
  | factor => none

/-- The power above which all operators belong to the phrase. -/
def power : Phrase → Nat
  | equation => 0
  | expression => 1
  | term => 2
  | factor => 3

/-- The phrase that has all operators above a power. -/
def ofPower : Nat → Phrase
  | 0 => equation
  | 1 => expression
  | 2 => term
  | _ => factor

/-- The operators of a chain are those of the next power. -/
theorem mem_operators_iff (phrase : Phrase) (kind : TokenKind) :
    kind ∈ phrase.operators ↔ kind.power = phrase.power + 1 := by
  cases phrase <;> cases kind <;> simp [operators, power, TokenKind.power]

theorem power_of_part? {phrase part : Phrase} (h : phrase.part? = some part) :
    part.power = phrase.power + 1 := by
  cases phrase <;> cases h <;> rfl

theorem power_ofPower {c : Nat} (h : c ≤ 3) : (ofPower c).power = c := by
  match c with
  | 0 | 1 | 2 | 3 => rfl

theorem part?_ofPower {c : Nat} (h : c < 3) : (ofPower c).part? = some (ofPower (c + 1)) := by
  match c with
  | 0 | 1 | 2 => rfl

end Phrase

/-- An operator of a chain and the part after it. -/
structure Link where
  operator : Token
  part : List Token
  tree : Expr

namespace Link

/-- The tokens of a link. -/
def tokens (k : Link) : List Token := k.operator :: k.part

/-- Folds a link onto the tree to the left of it. -/
def onto (left : Expr) (k : Link) : Expr := .binary left k.operator k.tree

end Link

/-- The grammar: which tokens are which phrase, and with which tree. -/
inductive Derives : Phrase → List Token → Expr → Prop
  | int {t : Token} (kind : t.kind = .int) : Derives .factor [t] t.literal
  | float {t : Token} (kind : t.kind = .float) : Derives .factor [t] t.literal
  | identifier {t : Token} (kind : t.kind = .identifier) : Derives .factor [t] t.literal
  | group {l r : Token} {tokens : List Token} {tree : Expr} (left : l.kind = .leftParen)
      (inner : Derives .equation tokens tree) (right : r.kind = .rightParen) :
      Derives .factor (l :: (tokens ++ [r])) tree
  | chain {phrase part : Phrase} {first : List Token} {tree : Expr} (links : List Link)
      (part_eq : phrase.part? = some part) (head : Derives part first tree)
      (operators : ∀ k ∈ links, k.operator.kind ∈ phrase.operators)
      (parts : ∀ k ∈ links, Derives part k.part k.tree) :
      Derives phrase (first ++ links.flatMap Link.tokens) (links.foldl Link.onto tree)

namespace Derives

/-- A number or an identifier is a factor. -/
theorem of_isLiteral {t : Token} (h : t.isLiteral = true) : Derives .factor [t] t.literal := by
  simp only [Token.isLiteral, Bool.or_eq_true, decide_eq_true_eq] at h
  rcases h with (hk | hk) | hk
  · exact .int hk
  · exact .float hk
  · exact .identifier hk

/-- A part is a chain without links. -/
theorem of_part {phrase part : Phrase} {tokens : List Token} {tree : Expr}
    (hpart : phrase.part? = some part) (h : Derives part tokens tree) :
    Derives phrase tokens tree := by
  have := chain [] hpart h (by simp) (by simp)
  rwa [List.flatMap_nil, List.append_nil, List.foldl_nil] at this

/-- Every phrase is also a phrase of each lower power. -/
theorem of_le {b c : Nat} (hle : b ≤ c) {tokens : List Token} {tree : Expr}
    (h : Derives (.ofPower c) tokens tree) : Derives (.ofPower b) tokens tree := by
  induction hle with
  | refl => exact h
  | @step c _ ih =>
    apply ih
    -- below the factors a part is a chain without links, and from there on all phrases are factors
    match c with
    | 0 | 1 | 2 => exact of_part rfl h
    | _ + 3 => exact h

/-- A chain goes on with another link. -/
theorem snoc {phrase part : Phrase} {tokens tokens' : List Token} {left right : Expr} {op : Token}
    (hpart : phrase.part? = some part) (h : Derives phrase tokens left)
    (hop : op.kind ∈ phrase.operators) (h' : Derives part tokens' right) :
    Derives phrase (tokens ++ op :: tokens') (.binary left op right) := by
  cases h with
  | int | float | identifier | group => cases hpart
  | @chain _ part' first tree links hpart' head operators parts =>
    obtain rfl : part' = part := Option.some.inj (hpart'.symm.trans hpart)
    have hlinks := chain (links ++ [⟨op, tokens', right⟩]) hpart head
      (by simpa [or_imp, forall_and] using ⟨operators, hop⟩)
      (by simpa [or_imp, forall_and] using ⟨parts, h'⟩)
    simpa [Link.tokens, Link.onto] using hlinks

end Derives

/-! ### Taking tokens -/

namespace Lexer

/-- Tokens taken one after another, with the lexers before and after them. -/
inductive Yields : Lexer → List Token → Lexer → Prop
  | nil (l : Lexer) : Yields l [] l
  | cons {l l' l'' : Lexer} {t : Token} {tokens : List Token} (first : l.next = (.ok t, l'))
      (rest : Yields l' tokens l'') : Yields l (t :: tokens) l''

theorem yields_cons_iff {l l'' : Lexer} {t : Token} {tokens : List Token} :
    Yields l (t :: tokens) l'' ↔ ∃ l', l.next = (.ok t, l') ∧ Yields l' tokens l'' := by
  constructor
  · rintro (_ | ⟨first, rest⟩)
    exact ⟨_, first, rest⟩
  · rintro ⟨l', first, rest⟩
    exact .cons first rest

theorem yields_append_iff {l l'' : Lexer} {tokens tokens' : List Token} :
    Yields l (tokens ++ tokens') l'' ↔ ∃ l', Yields l tokens l' ∧ Yields l' tokens' l'' := by
  constructor
  · intro h
    induction tokens generalizing l with
    | nil => exact ⟨l, .nil l, h⟩
    | cons t tokens ih =>
      obtain ⟨l₁, first, rest⟩ := yields_cons_iff.mp h
      obtain ⟨l', htokens, htokens'⟩ := ih rest
      exact ⟨l', .cons first htokens, htokens'⟩
  · rintro ⟨l', h, h'⟩
    induction h with
    | nil => exact h'
    | cons first _ ih => exact .cons first (ih h')

/-- One more token is taken. -/
theorem Yields.snoc {l l' l'' : Lexer} {tokens : List Token} {t : Token} (h : Yields l tokens l')
    (last : l'.next = (.ok t, l'')) : Yields l (tokens ++ [t]) l'' :=
  yields_append_iff.mpr ⟨l', h, .cons last (.nil l'')⟩

/-- All tokens can be taken, and the end is the last one, if none of them is a failure. -/
theorem yields_of_drain (l : Lexer) {tokens : List Token} (h : l.drain = (tokens, none)) :
    ∃ l', Yields l tokens l' := by
  fun_induction drain l generalizing tokens with
  | case1 => cases h
  | case2 l t after hn hk =>
    cases h
    exact ⟨after, .cons hn (.nil after)⟩
  | case3 l t after hn hk rest failure hrest ih =>
    cases h
    obtain ⟨l', hl'⟩ := ih hrest
    exact ⟨l', .cons hn hl'⟩

/-- Tokens that are taken before the end are the first ones of all tokens. -/
theorem Yields.drain_append {l l' : Lexer} {tokens : List Token} (h : Yields l tokens l')
    (hkinds : ∀ t ∈ tokens, t.kind ≠ .eof) :
    l.drain = (tokens ++ l'.drain.1, l'.drain.2) := by
  induction h with
  | nil => rfl
  | cons first _ ih =>
    obtain ⟨hk, hkinds⟩ := List.forall_mem_cons.mp hkinds
    rw [drain_of_next first, if_neg hk, ih hkinds, List.cons_append]

/-- Tokens that are taken up to the first end are all tokens. -/
theorem Yields.drain_eq {l l' : Lexer} {tokens : List Token} {eof : Token}
    (h : Yields l (tokens ++ [eof]) l') (hkinds : ∀ t ∈ tokens, t.kind ≠ .eof)
    (heof : eof.kind = .eof) : l.drain = (tokens ++ [eof], none) := by
  obtain ⟨l₁, htokens, hlast⟩ := yields_append_iff.mp h
  obtain ⟨l₂, hnext, -⟩ := yields_cons_iff.mp hlast
  rw [htokens.drain_append hkinds, drain_of_next hnext, if_pos heof]

end Lexer

/-! ### What is read is derived -/

namespace Token

/-- Tokens other than numbers can always be represented. -/
theorem converts_of_ne {t : Token} (hint : t.kind ≠ .int) (hfloat : t.kind ≠ .float) :
    t.Converts :=
  ⟨fun h => absurd h hint, fun h => absurd h hfloat⟩

end Token

namespace Parser

/-- The tokens from a lexer up to the current token of a parser, which is not one of them, can be
represented and derive a tree. -/
def Spans (l : Lexer) (phrase : Phrase) (tree : Expr) (q : Parser) : Prop :=
  ∃ tokens, l.Yields (tokens ++ [q.current]) q.lexer ∧ (∀ t ∈ tokens, t.Converts) ∧
    Derives phrase tokens tree

namespace Spans

variable {l : Lexer} {p q : Parser} {left right tree : Expr} {t : Token}

/-- A number or an identifier, with the token after it. -/
theorem literal (first : p.advance = (.ok t, q)) (operand : t.operand? = some (.ok tree))
    {q' : Parser} {t' : Token} (next : q.advance = (.ok t', q')) :
    Spans p.lexer .factor tree q' := by
  obtain ⟨hfirst, -⟩ := advance_eq_ok first
  obtain ⟨hnext, rfl⟩ := advance_eq_ok next
  obtain ⟨hliteral, hconv, rfl⟩ := Token.operand?_eq_ok operand
  refine ⟨[t], ?_, ?_, .of_isLiteral hliteral⟩
  · exact .cons hfirst (.cons hnext (.nil _))
  · simpa using hconv

/-- An equation in brackets, with the token after it. -/
theorem group (first : p.advance = (.ok t, q)) (hk : t.kind = .leftParen) {q' q'' : Parser}
    {t' : Token} (inner : Spans q.lexer .equation tree q') (last : q'.current.kind = .rightParen)
    (next : q'.advance = (.ok t', q'')) : Spans p.lexer .factor tree q'' := by
  obtain ⟨hfirst, -⟩ := advance_eq_ok first
  obtain ⟨hnext, rfl⟩ := advance_eq_ok next
  obtain ⟨tokens, hyields, hconv, hderives⟩ := inner
  refine ⟨t :: (tokens ++ [q'.current]), ?_, ?_, .group hk hderives last⟩
  · exact .cons hfirst (hyields.snoc hnext)
  · have hleft : t.Converts := Token.converts_of_ne (by simp [hk]) (by simp [hk])
    have hright : q'.current.Converts := Token.converts_of_ne (by simp [last]) (by simp [last])
    simpa [or_imp, forall_and, hleft, hright] using hconv

/-- What is derived at a power is derived at each lower one. -/
theorem of_le {b c : Nat} (hle : b ≤ c) (h : Spans l (.ofPower c) tree q) :
    Spans l (.ofPower b) tree q := by
  obtain ⟨tokens, hyields, hconv, hderives⟩ := h
  exact ⟨tokens, hyields, hconv, hderives.of_le hle⟩

/-- An operator and its right operand go on with a chain. -/
theorem operator {c : Nat} (h : Spans l (.ofPower c) left p) (hop : p.current.kind.power = c + 1)
    (h' : Spans p.lexer (.ofPower (c + 1)) right q) :
    Spans l (.ofPower c) (.binary left p.current right) q := by
  obtain ⟨tokens, hyields, hconv, hderives⟩ := h
  obtain ⟨tokens', hyields', hconv', hderives'⟩ := h'
  refine ⟨tokens ++ p.current :: tokens', ?_, ?_, ?_⟩
  · rw [← List.singleton_append, ← List.append_assoc, List.append_assoc]
    exact Lexer.yields_append_iff.mpr ⟨p.lexer, hyields, hyields'⟩
  · have hconvOp : p.current.Converts :=
      Token.converts_of_ne (fun h => by simp [h, TokenKind.power] at hop)
        (fun h => by simp [h, TokenKind.power] at hop)
    simpa [or_imp, forall_and, hconvOp] using ⟨hconv, hconv'⟩
  · have hc := TokenKind.power_le_three p.current.kind
    refine hderives.snoc (Phrase.part?_ofPower (by omega)) ?_ hderives'
    rw [Phrase.mem_operators_iff, hop, Phrase.power_ofPower (by omega)]

end Spans

/-- What is known of a part that was read. Operators are read after their left operand, at whatever
power this was derived. -/
def Part.Derived (part : Part) (p : Parser) (tree : Expr) (q : Parser) : Prop :=
  match part with
  | operand => Spans p.lexer .factor tree q
  | expr b => Spans p.lexer (.ofPower b) tree q ∧ q.current.kind.power ≤ b
  | operators left b =>
    ∀ l c, Spans l (.ofPower c) left p → b ≤ c → p.current.kind.power ≤ c + 1 →
      Spans l (.ofPower b) tree q ∧ q.current.kind.power ≤ b

/-- **What is read is derived.** -/
theorem derived_of_reads {part : Part} {p : Parser} {r : Except InputError Expr × Parser}
    (h : Reads part p r) {tree : Expr} {q : Parser} (hr : r = (.ok tree, q)) :
    part.Derived p tree q := by
  induction h generalizing tree q with
  | noToken | badNumber | literalThenNoToken | unexpected | badGroup | unclosed
  | groupThenNoToken | badOperand | badRight => cases hr
  | literal first operand next =>
    cases hr
    exact Spans.literal first operand next
  | group first kind inner last next ih =>
    cases hr
    exact Spans.group first kind (ih rfl).1 last next
  | @expr p q₁ b left r operand rest ih ih' =>
    -- `b + 3` is above `b` and above every operator, and stands for the factors
    have hc := TokenKind.power_le_three q₁.current.kind
    have hoperand : Spans p.lexer (.ofPower (b + 3)) left q₁ := ih rfl
    exact ih' hr p.lexer (b + 3) hoperand (by omega) (by omega)
  | @done p left b low =>
    cases hr
    intro l c hspans hbc _
    exact ⟨hspans.of_le hbc, low⟩
  | @operator p q₁ left right b r high operand rest ih ih' =>
    intro l c hspans hbc hop
    obtain ⟨hright, hnext⟩ := ih rfl
    -- the operator belongs to the chains of the power just below its own
    obtain ⟨d, hd⟩ : ∃ d, p.current.kind.power = d + 1 := ⟨p.current.kind.power - 1, by omega⟩
    rw [hd] at hright hnext
    have hleft : Spans l (.ofPower d) left p := hspans.of_le (by omega)
    exact ih' hr l d (hleft.operator hd hright) (by omega) hnext

/-! ### What is derived is read -/

/-- The tokens of a phrase are read as its tree, whatever comes next, unless it is an operator that
takes a part out of the phrase. -/
def ReadsAs (phrase : Phrase) (tokens : List Token) (tree : Expr) : Prop :=
  ∀ (p : Parser) (l : Lexer) (next : Token) (b : Nat), p.lexer.Yields (tokens ++ [next]) l →
    b ≤ phrase.power → next.kind.power ≤ phrase.power + 1 →
      (readExpr p b).val = (readOperators ⟨l, next⟩ tree b).val

/-- What is read as an operand is read as a factor. -/
theorem readsAs_factor {tokens : List Token} {tree : Expr}
    (h : ∀ (p : Parser) (l : Lexer) (next : Token), p.lexer.Yields (tokens ++ [next]) l →
      (readOperand p).val = (.ok tree, ⟨l, next⟩)) : ReadsAs .factor tokens tree := by
  intro p l next b hyields _ _
  rw [readExpr_val, h p l next hyields]
  rfl

theorem readsAs_literal {t : Token} (hliteral : t.isLiteral = true) (hconv : t.Converts) :
    ReadsAs .factor [t] t.literal := by
  apply readsAs_factor
  intro p l next hyields
  obtain ⟨l₁, hfirst, hrest⟩ := Lexer.yields_cons_iff.mp hyields
  obtain ⟨l₂, hnext, hnil⟩ := Lexer.yields_cons_iff.mp hrest
  cases hnil
  have hoperand : t.operand? = some (.ok t.literal) := by
    rw [Token.operand?_eq, if_pos hliteral, if_pos hconv]
  have hadvance : advance ⟨l₁, t⟩ = (.ok next, ⟨l, next⟩) := advance_of_next hnext
  simp only [readOperand_val, advance_of_next hfirst, andThen, hoperand, hadvance]

theorem readsAs_group {left right : Token} {tokens : List Token} {tree : Expr}
    (hleft : left.kind = .leftParen) (inner : ReadsAs .equation tokens tree)
    (hright : right.kind = .rightParen) :
    ReadsAs .factor (left :: (tokens ++ [right])) tree := by
  apply readsAs_factor
  intro p l next hyields
  obtain ⟨l₁, hfirst, hrest⟩ := Lexer.yields_cons_iff.mp hyields
  obtain ⟨l₂, hinner, hlast⟩ := Lexer.yields_append_iff.mp hrest
  obtain ⟨l₃, hnext, hnil⟩ := Lexer.yields_cons_iff.mp hlast
  cases hnil
  have hpower : right.kind.power = 0 := by rw [hright]; rfl
  have hexpr : (readExpr ⟨l₁, left⟩ 0).val = (.ok tree, ⟨l₂, right⟩) := by
    rw [inner _ l₂ right 0 hinner (Nat.le_refl _) (by omega)]
    exact readOperators_of_power_le (Nat.le_of_eq hpower) tree
  have hoperand := Token.operand?_of_leftParen hleft
  have hadvance : advance ⟨l₂, right⟩ = (.ok next, ⟨l, next⟩) := advance_of_next hnext
  simp only [readOperand_val, advance_of_next hfirst, andThen, hoperand, hleft, hexpr, hright,
    hadvance, if_true]

/-- The token after the first part of a chain: an operator of the chain, or the token after it. -/
theorem exists_next_of_links {c : Nat} {next : Token} (hnext : next.kind.power ≤ c)
    (links : List Link) (operators : ∀ k ∈ links, k.operator.kind.power = c) :
    ∃ t rest, links.flatMap Link.tokens ++ [next] = t :: rest ∧ t.kind.power ≤ c := by
  cases links with
  | nil => exact ⟨next, [], rfl, hnext⟩
  | cons k links =>
    exact ⟨k.operator, _, rfl, Nat.le_of_eq (operators k List.mem_cons_self)⟩

/-- The links of a chain are folded onto what is to the left of them. -/
theorem readOperators_links {part : Phrase} {b c : Nat} {next : Token} (hpart : part.power = c)
    (hb : b < c) (hnext : next.kind.power ≤ c) {l' : Lexer} (links : List Link)
    (operators : ∀ k ∈ links, k.operator.kind.power = c)
    (parts : ∀ k ∈ links, ReadsAs part k.part k.tree) {l : Lexer} {t : Token} {rest : List Token}
    (hlinks : links.flatMap Link.tokens ++ [next] = t :: rest) (hyields : l.Yields rest l')
    (left : Expr) :
    (readOperators ⟨l, t⟩ left b).val =
      (readOperators ⟨l', next⟩ (links.foldl Link.onto left) b).val := by
  induction links generalizing l t rest left with
  | nil =>
    cases hlinks
    cases hyields
    rfl
  | cons k links ih =>
    obtain ⟨hop, operators⟩ := List.forall_mem_cons.mp operators
    obtain ⟨hk, parts⟩ := List.forall_mem_cons.mp parts
    obtain ⟨t', rest', hlinks', ht'⟩ := exists_next_of_links hnext links operators
    obtain ⟨rfl, rfl⟩ : k.operator = t ∧ k.part ++ t' :: rest' = rest := by
      simpa [Link.tokens, hlinks'] using hlinks
    -- the part after the operator ends where the next link or the chain does
    rw [← List.singleton_append, ← List.append_assoc] at hyields
    obtain ⟨l₁, hright, hrest⟩ := Lexer.yields_append_iff.mp hyields
    have hexpr : (readExpr ⟨l, k.operator⟩ c).val = (.ok k.tree, ⟨l₁, t'⟩) := by
      rw [hk _ l₁ t' c hright (Nat.le_of_eq hpart.symm) (by omega)]
      exact readOperators_of_power_le ht' k.tree
    rw [readOperators_val, hop, if_pos hb, hexpr]
    exact ih operators parts hlinks' hrest (Link.onto left k)

/-- **What is derived is read**, if its numbers can be represented. -/
theorem readsAs_of_derives {phrase : Phrase} {tokens : List Token} {tree : Expr}
    (h : Derives phrase tokens tree) (hconv : ∀ t ∈ tokens, t.Converts) :
    ReadsAs phrase tokens tree := by
  induction h with
  | int kind | float kind | identifier kind =>
    exact readsAs_literal (by simp [Token.isLiteral, kind]) (hconv _ List.mem_cons_self)
  | @group left right tokens tree hleft inner hright ih =>
    refine readsAs_group hleft (ih fun t ht => hconv t ?_) hright
    exact List.mem_cons_of_mem _ (List.mem_append_left _ ht)
  | @chain phrase part first tree links hpart head operators parts ih ih' =>
    intro p l next b hyields hb hnext
    have hpower := Phrase.power_of_part? hpart
    have hops : ∀ k ∈ links, k.operator.kind.power = phrase.power + 1 := fun k hk =>
      (phrase.mem_operators_iff _).mp (operators k hk)
    obtain ⟨t, rest, hlinks, ht⟩ := exists_next_of_links hnext links hops
    rw [List.append_assoc, hlinks, ← List.singleton_append, ← List.append_assoc] at hyields
    obtain ⟨l₁, hfirst, hrest⟩ := Lexer.yields_append_iff.mp hyields
    have hhead := ih (fun t ht => hconv t (List.mem_append_left _ ht))
    rw [hhead p l₁ t b hfirst (by omega) (by omega)]
    refine readOperators_links hpower (by omega) hnext links hops (fun k hk => ?_) hlinks hrest tree
    refine ih' k hk (fun t ht => hconv t (List.mem_append_right _ ?_))
    exact List.mem_flatMap.mpr ⟨k, hk, List.mem_cons_of_mem _ ht⟩

end Parser

/-! ### Whole equations -/

/-- An equation is an expression up to the end. -/
theorem Parser.equation_eq_ok_iff (p : Parser) (tree : Expr) :
    p.equation.1 = .ok tree ↔
      ∃ q, (readExpr p 0).val = (.ok tree, q) ∧ q.current.kind = .eof := by
  rw [equation]
  rcases (readExpr p 0).val with ⟨e | tree', q⟩
  · simp
  · dsimp only
    constructor
    · intro h
      split at h
      · rename_i heof
        cases h
        exact ⟨q, rfl, heof⟩
      · cases h
      · cases h
    · rintro ⟨q', hq, heof⟩
      cases hq
      rw [heof]

/-- The end is no part of a phrase. -/
theorem Derives.kind_ne_eof {phrase : Phrase} {tokens : List Token} {tree : Expr}
    (h : Derives phrase tokens tree) : ∀ t ∈ tokens, t.kind ≠ .eof := by
  induction h with
  | int kind | float kind | identifier kind =>
    simp [kind]
  | @group left right tokens tree hleft inner hright ih =>
    have hright' : ∀ t ∈ [right], t.kind ≠ .eof := by simp [hright]
    refine List.forall_mem_cons.mpr ⟨by simp [hleft], ?_⟩
    exact List.forall_mem_append.mpr ⟨ih, hright'⟩
  | @chain phrase part first tree links hpart head operators parts ih ih' =>
    rw [List.forall_mem_append]
    refine ⟨ih, fun t ht => ?_⟩
    obtain ⟨k, hk, ht⟩ := List.mem_flatMap.mp ht
    rcases List.mem_cons.mp ht with rfl | ht
    · intro heof
      have hop := (phrase.mem_operators_iff _).mp (operators k hk)
      rw [heof] at hop
      exact absurd hop (Nat.succ_ne_zero _).symm
    · exact ih' k hk t ht

/-- The tokens of a text that is read as a tree derive the tree. -/
theorem derives_of_parse {skipBlanks : Bool} {equation : Text} {tree : Expr}
    (h : parse skipBlanks equation = .ok tree) :
    ∃ tokens eof, Lexer.tokenize skipBlanks equation = (tokens ++ [eof], none) ∧
      eof.kind = .eof ∧ (∀ t ∈ tokens, t.Converts) ∧ Derives .equation tokens tree := by
  obtain ⟨q, hr, heof⟩ := (Parser.equation_eq_ok_iff _ tree).mp h
  obtain ⟨⟨tokens, hyields, hconv, hderives⟩, -⟩ :=
    Parser.derived_of_reads (Parser.reads_readExpr _ 0) hr
  exact ⟨tokens, q.current, hyields.drain_eq hderives.kind_ne_eof heof, heof, hconv, hderives⟩

/-- A text whose tokens derive a tree is read as the tree. -/
theorem parse_of_derives {skipBlanks : Bool} {equation : Text} {tokens : List Token} {eof : Token}
    {tree : Expr} (htokens : Lexer.tokenize skipBlanks equation = (tokens ++ [eof], none))
    (heof : eof.kind = .eof) (hconv : ∀ t ∈ tokens, t.Converts)
    (hderives : Derives .equation tokens tree) : parse skipBlanks equation = .ok tree := by
  obtain ⟨l, hyields⟩ := Lexer.yields_of_drain _ htokens
  have hpower : eof.kind.power = 0 := by rw [heof]; rfl
  have hreads := Parser.readsAs_of_derives hderives hconv
  refine (Parser.equation_eq_ok_iff _ tree).mpr ⟨⟨l, eof⟩, ?_, heof⟩
  rw [hreads _ l eof 0 hyields (Nat.le_refl _) (by omega)]
  exact Parser.readOperators_of_power_le (Nat.le_of_eq hpower) tree

/-- **The parser reads exactly its grammar.** A text is read as a tree if and only if it can be cut
into tokens, all numbers among them can be represented, and the tokens before the end derive the
tree as an equation. -/
theorem parse_eq_ok_iff (skipBlanks : Bool) (equation : Text) (tree : Expr) :
    parse skipBlanks equation = .ok tree ↔
      ∃ tokens eof, Lexer.tokenize skipBlanks equation = (tokens ++ [eof], none) ∧
        eof.kind = .eof ∧ (∀ t ∈ tokens, t.Converts) ∧ Derives .equation tokens tree := by
  refine ⟨derives_of_parse, ?_⟩
  rintro ⟨tokens, eof, htokens, heof, hconv, hderives⟩
  exact parse_of_derives htokens heof hconv hderives

end Reckon
