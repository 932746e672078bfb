import Reckon.Proofs.Parser.Blanks

/-!
# Names

A name is a letter followed by letters and digits, of any script. The identifiers that the lexer
hands out are names, and every name is read again as one identifier, with the same bytes
(`parse_name`).
-/

namespace Reckon

/-- A letter, followed by letters and digits. -/
def Text.IsName (name : Text) : Prop :=
  ∃ first rest, name.runes = first :: rest ∧ isLetter first.char = true ∧
    ∀ r ∈ rest, isLetter r.char = true ∨ isDecimalDigit r.char = true

theorem Text.IsName.ne_nil {name : Text} (h : name.IsName) : name ≠ [] := by
  obtain ⟨first, rest, hrunes, -⟩ := h
  rintro rfl
  rw [runes_nil] at hrunes
  contradiction

/-- An ASCII byte that is neither a letter nor a digit is in no name. -/
theorem Text.IsName.not_mem {name : Text} (h : name.IsName) {b : UInt8} (hlow : b < 0x80)
    (hletter : isLetter (Char.ofNat b.toNat) = false)
    (hdigit : isDecimalDigit (Char.ofNat b.toNat) = false) : b ∉ name := by
  obtain ⟨first, rest, hrunes, hfirst, hrest⟩ := h
  intro hb
  have hmem := mem_runes_of_mem hb hlow
  rw [hrunes, List.mem_cons] at hmem
  rcases hmem with rfl | hmem
  · exact Bool.false_ne_true (hletter.symm.trans hfirst)
  · rcases hrest _ hmem with h | h
    · exact Bool.false_ne_true (hletter.symm.trans h)
    · exact Bool.false_ne_true (hdigit.symm.trans h)

/-- A name does not start with an ASCII digit. -/
theorem Text.IsName.exists_cons {name : Text} (h : name.IsName) :
    ∃ b rest, name = b :: rest ∧ isDigitByte b = false := by
  obtain ⟨b, tail, rfl⟩ := List.exists_cons_of_ne_nil h.ne_nil
  refine ⟨b, tail, rfl, Bool.eq_false_iff.mpr fun hdigit => ?_⟩
  obtain ⟨first, rest, hrunes, hfirst, -⟩ := h
  rw [isDigitByte, Bool.and_eq_true, decide_eq_true_eq, decide_eq_true_eq] at hdigit
  have hlow : b < 0x80 := Nat.lt_of_le_of_lt hdigit.2 (by decide)
  have hu : uncons (b :: tail) = some (⟨Char.ofNat b.toNat, [b]⟩, tail) := by
    rw [uncons, if_pos hlow]
  rw [runes_of_uncons hu] at hrunes
  obtain ⟨rfl, -⟩ := List.cons.inj hrunes
  have hletters : ∀ n < 58, 48 ≤ n → isLetter (Char.ofNat n) = false := by decide
  rw [hletters b.toNat (Nat.lt_succ_of_le hdigit.2) hdigit.1] at hfirst
  contradiction

namespace Token

/-- The text of an identifier is a name. -/
theorem IsWord.isName {t : Token} (h : t.IsWord) (hk : t.kind = .identifier) : t.text.IsName := by
  obtain ⟨kind, text, pos⟩ := t
  dsimp only [Token.IsWord] at h hk ⊢
  rw [Text.IsName]
  generalize text.runes = rs at h
  cases h with
  | assign | equal => contradiction
  | number first chars last kind_eq =>
    rw [kind_eq] at hk
    split at hk <;> contradiction
  | @name first rest letter chars =>
    refine ⟨first, rest, rfl, letter, fun r hr => ?_⟩
    exact (Bool.or_eq_true _ _).mp (chars r (List.mem_cons_of_mem _ hr))
  | single symbol =>
    rw [hk] at symbol
    unfold Lexer.single? at symbol
    split at symbol <;> contradiction

/-- A name is the text of an identifier. -/
theorem isWord_of_isName {name : Text} (h : name.IsName) (pos : Nat) :
    IsWord ⟨.identifier, name, pos⟩ := by
  obtain ⟨first, rest, hrunes, hletter, hrest⟩ := h
  rw [IsWord, hrunes]
  refine .name hletter (List.forall_mem_cons.mpr ⟨?_, fun r hr => ?_⟩)
  · exact (Bool.or_eq_true _ _).mpr (.inl hletter)
  · exact (Bool.or_eq_true _ _).mpr (hrest r hr)

end Token

/-- A literal alone is an equation. -/
theorem parse_literal (skipBlanks : Bool) {t : Token} (hword : t.IsWord)
    (hliteral : t.isLiteral = true) (hconv : t.Converts) :
    parse skipBlanks t.text = .ok t.literal := by
  obtain ⟨kind, text, pos⟩ := t
  -- the literal without a gap before it, and the end without one
  let ws : List Spaced := [⟨[], kind, text, pos⟩, ⟨[], .eof, [], pos⟩]
  have hfits : ∀ w ∈ ws, w.Fits skipBlanks :=
    List.forall_mem_cons.mpr ⟨⟨Lexer.isGap_nil, fun _ => rfl⟩,
      List.forall_mem_singleton.mpr ⟨Lexer.isGap_nil, fun _ => rfl⟩⟩
  have hwords : Words false (ws.map Spaced.token) := .cons hword (fun _ => rfl) (.last rfl rfl)
  have hchain : (ws.map Spaced.token).IsChain Token.Apart :=
    List.isChain_cons_cons.mpr ⟨fun _ => rfl, .singleton _⟩
  have htokens : Lexer.tokenize skipBlanks text =
      ([⟨kind, text, 0⟩] ++ [⟨.eof, [], text.length⟩], none) := by
    simpa [ws, Spaced.place] using tokenize_layout hfits hwords hchain
  have hfactor : Derives (.ofPower 3) [⟨kind, text, 0⟩] (Token.literal ⟨kind, text, 0⟩) :=
    .of_isLiteral hliteral
  refine parse_of_derives htokens rfl (fun t ht => ?_) (hfactor.of_le (Nat.zero_le 3))
  obtain rfl := List.mem_singleton.mp ht
  exact hconv

/-- **A name is read as itself.** -/
theorem parse_name (skipBlanks : Bool) {name : Text} (h : name.IsName) :
    parse skipBlanks name = .ok (.identifier name) :=
  parse_literal skipBlanks (Token.isWord_of_isName h 0) rfl
    (Token.converts_of_ne (by simp) (by simp))

end Reckon
