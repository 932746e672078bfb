import Reckon.Proofs.Parser.Dump

/-!
# Printed numbers are read back

A number that is not negative is written as digits, or as digits with a point among them, unless it
needs an exponent. Such a numeral is one word of the lexer, an integer without a point and a float
with one (`Token.isWord_of_isPlainNumeral`): it starts and ends with a digit. The parser converts
it to the number whose text it is: digits give the integer back, and a decimal gives the nearest
double, which is the one that it was written for (`pointValue_unsigned`). So an equation that is
the text of a number has that number as its value, for every session and every table
(`printed_numbers_read_back`).
-/

namespace Reckon

/-! ### Numerals as tokens -/

namespace Text

variable {t : Text} {v : ℚ}

/-- A point is never the last byte. -/
theorem IsPlainNumeral.getLast?_ne (h : IsPlainNumeral t v) : t.getLast? ≠ some '.'.toUInt8 := by
  intro hlast
  cases h with
  | whole digits => exact digits.not_mem rfl (List.mem_of_getLast? hlast)
  | @point whole fraction digits places =>
    obtain ⟨b, rest, rfl⟩ := List.exists_cons_of_ne_nil places.ne_nil
    rw [List.getLast?_append_cons, List.getLast?_cons_cons] at hlast
    exact places.not_mem rfl (List.mem_of_getLast? hlast)

theorem toNat_ofNat_toNat (b : UInt8) : (Char.ofNat b.toNat).toNat = b.toNat := by
  have hvalid : b.toNat.isValidChar := .inl (Nat.lt_trans b.toNat_lt (by decide))
  rw [Char.toNat_ofNat, if_pos hvalid]

theorem isDigit_of_isDigitByte {b : UInt8} (h : isDigitByte b = true) :
    (Char.ofNat b.toNat).isDigit = true := by
  rw [isDigitByte, Bool.and_eq_true, decide_eq_true_eq, decide_eq_true_eq] at h
  rw [Char.isDigit_iff_toNat, toNat_ofNat_toNat]
  exact h

theorem ofNat_toNat_eq_point {b : UInt8} : Char.ofNat b.toNat = '.' ↔ b = '.'.toUInt8 := by
  rw [← Char.toNat_inj, toNat_ofNat_toNat, ← UInt8.toNat_inj]
  rfl

end Text

/-- **A numeral without exponent is one word**: a float if there is a point in it. -/
theorem Token.isWord_of_isPlainNumeral {t : Text} {v : ℚ} (h : t.IsPlainNumeral v) (pos : Nat) :
    IsWord ⟨if '.'.toUInt8 ∈ t then .float else .int, t, pos⟩ := by
  have hascii : ∀ b ∈ t, b < 0x80 := by
    intro b hb
    rcases h.bytes b hb with hdigit | rfl
    · rw [Text.isDigitByte, Bool.and_eq_true, decide_eq_true_eq, decide_eq_true_eq] at hdigit
      exact Nat.lt_of_le_of_lt hdigit.2 (by decide)
    · decide
  have hrunes := Text.runes_of_ascii hascii
  have hchars : ∀ r ∈ t.runes, Lexer.isNumberChar r.char = true := by
    rw [hrunes, List.forall_mem_map]
    intro b hb
    rcases h.bytes b hb with hdigit | rfl
    · rw [Lexer.isNumberChar, Text.isDigit_of_isDigitByte hdigit, Bool.true_or]
    · rfl
  have hlast : t.runes.getLast?.map Rune.char ≠ some '.' := by
    rw [hrunes, List.getLast?_map, Option.map_map]
    intro hpoint
    obtain ⟨b, hb, hchar⟩ := Option.map_eq_some_iff.mp hpoint
    exact h.getLast?_ne (hb.trans (congrArg some (Text.ofNat_toNat_eq_point.mp hchar)))
  have hpoint : t.runes.any (fun r => r.char == '.') = true ↔ '.'.toUInt8 ∈ t := by
    rw [hrunes, List.any_map, List.any_eq_true]
    simp only [Function.comp_apply, beq_iff_eq, Text.ofNat_toNat_eq_point, exists_eq_right]
  obtain ⟨b, rest, rfl, hb⟩ := h.exists_cons
  rw [IsWord]
  simp only [← hpoint]
  rw [hrunes] at hchars hlast ⊢
  exact .number (Text.isDigit_of_isDigitByte hb) hchars hlast rfl

/-! ### What numerals stand for -/

/-- The parts of a decimal with a point. -/
theorem Token.pointValue_append {whole fraction : Text} (h : '.'.toUInt8 ∉ whole) :
    pointValue (whole ++ '.'.toUInt8 :: fraction) = nearestFloat whole fraction := by
  have hbefore : ∀ b ∈ whole, (b != '.'.toUInt8) = true :=
    fun b hb => bne_iff_ne.mpr (ne_of_mem_of_not_mem hb h)
  rw [pointValue, List.takeWhile_append_of_pos hbefore, List.dropWhile_append_of_pos hbefore,
    List.takeWhile_cons_of_neg (by simp), List.dropWhile_cons_of_neg (by simp), List.append_nil]
  rfl

/-- Digits with a point among them. -/
theorem Text.IsPlainNumeral.exists_point {t : Text} {v : ℚ} (h : t.IsPlainNumeral v)
    (hpoint : '.'.toUInt8 ∈ t) :
    ∃ whole fraction, IsDigits whole ∧ IsDigits fraction ∧ t = whole ++ '.'.toUInt8 :: fraction ∧
      v = digitsToNat (whole ++ fraction) / 10 ^ fraction.length := by
  cases h with
  | whole digits => exact absurd hpoint (digits.not_mem rfl)
  | point digits places => exact ⟨_, _, digits, places, rfl, rfl⟩

/-- **A decimal stands for the double that it was written for.** -/
theorem pointValue_unsigned {x : Float} {m : Nat} {q : Int}
    (hx : Binary64.ofFloat x = .finite false m q) {whole fraction : Text}
    (hwhole : Text.IsDigits whole) (hfraction : Text.IsDigits fraction)
    (ht : FloatLayout.result.unsigned m q = whole ++ '.'.toUInt8 :: fraction) :
    Token.pointValue (FloatLayout.result.unsigned m q) = x := by
  have hc := Binary64.canonical_of_ofBits hx
  obtain ⟨v, hv, ⟨rfl, -⟩ | ⟨hm, hround⟩⟩ := FloatLayout.result.isNumeral_unsigned hc
  · -- zero
    obtain rfl : q = -1074 := hc.2.2.resolve_left (by decide)
    refine Binary64.ofFloat_injective (Eq.trans ?_ hx.symm)
    decide +kernel
  · rw [ht] at hv
    obtain rfl := hv.unique (.plain (.point hwhole hfraction))
    rw [ht, Token.pointValue_append (hwhole.not_mem rfl)]
    exact Binary64.ofScientific_of_roundsTo (List.length_pos_iff.mpr hfraction.ne_nil) hm hx hround

/-- An integer is read as itself. -/
theorem parse_text_int (skipBlanks : Bool) {n : Int64} (h : 0 ≤ n.toInt) :
    parse skipBlanks (Number.int n).text = .ok (.int n) := by
  have hdigits := Text.isDigits_ofNat n.toInt.natAbs
  have hvalue := Text.digitsToNat_ofNat n.toInt.natAbs
  have hword := Token.isWord_of_isPlainNumeral (.whole hdigits) 0
  rw [if_neg (hdigits.not_mem rfl)] at hword
  have hconv : Token.Converts ⟨.int, Text.ofNat n.toInt.natAbs, 0⟩ := by
    have hlt := n.toInt_lt
    refine ⟨fun _ => ?_, by simp⟩
    rw [hvalue]
    omega
  have hliteral : Token.literal ⟨.int, Text.ofNat n.toInt.natAbs, 0⟩ = .int n := by
    rw [Token.literal]
    dsimp only
    rw [hvalue, ← Int64.ofInt_eq_ofNat, Int.natAbs_of_nonneg h, Int64.ofInt_toInt]
  rw [Number.text, Text.ofInt_of_nonneg h, ← hliteral]
  exact parse_literal skipBlanks hword rfl hconv

/-- A float without exponent is read as itself. -/
theorem parse_text_float (skipBlanks : Bool) {x : Float} {m : Nat} {q : Int}
    (hx : Binary64.ofFloat x = .finite false m q)
    (hexponent : 'e'.toUInt8 ∉ (Number.float x).text) :
    parse skipBlanks (Number.float x).text = .ok (.float x) := by
  have htext : (Number.float x).text = FloatLayout.result.unsigned m q :=
    FloatLayout.result.format_of_finite hx
  rw [htext] at hexponent ⊢
  -- without an exponent there is a point
  have hpoint : '.'.toUInt8 ∈ FloatLayout.result.unsigned m q :=
    (FloatLayout.marked_unsigned rfl m q).resolve_right hexponent
  obtain ⟨v, hv, -⟩ := FloatLayout.result.isNumeral_unsigned (Binary64.canonical_of_ofBits hx)
  have hplain := hv.isPlainNumeral hexponent
  obtain ⟨whole, fraction, hwhole, hfraction, ht, -⟩ := hplain.exists_point hpoint
  have hword := Token.isWord_of_isPlainNumeral hplain 0
  rw [if_pos hpoint] at hword
  have hvalue := pointValue_unsigned hx hwhole hfraction ht
  have hconv : Token.Converts ⟨.float, FloatLayout.result.unsigned m q, 0⟩ := by
    refine ⟨by simp, fun _ => ⟨?_, ?_⟩⟩
    · rw [ht, List.count_append, List.count_cons_self, List.count_eq_zero.mpr (hwhole.not_mem rfl),
        List.count_eq_zero.mpr (hfraction.not_mem rfl)]
    · rw [hvalue, hx]
      rfl
  have hliteral : Token.literal ⟨.float, FloatLayout.result.unsigned m q, 0⟩ = .float x :=
    congrArg Expr.float hvalue
  rw [← hliteral]
  exact parse_literal skipBlanks hword rfl hconv

/-! ### Sessions -/

/-- An equation that is read as a number has that number as its value, and changes nothing. -/
theorem Session.eval_of_number (s : Session) (table : Table) {equation : Text} {x : Number}
    (h : ∀ skipBlanks, Reckon.parse skipBlanks equation = .ok (Expr.ofNumber x)) :
    (s.eval table equation).1 = .ok (.number x) ∧ (s.eval table equation).2.2 = table := by
  obtain ⟨hresult, htable, -⟩ := s.eval_eq table equation
  have hread : s.options.eval table equation = (.ok (.number x), table) := by
    rw [SessionOptions.eval, h]
    cases x <;> rfl
  rw [hread] at hresult htable
  exact ⟨hresult, htable⟩

/-- **Printed numbers are read back.** Whatever the session and the table: the text of an integer
that is not negative, evaluated as an equation, has this integer as its value; the text of a finite
double with a positive sign, if there is no exponent in it, has this double as its value, with all
its bits; and the table stays as it is. -/
theorem printed_numbers_read_back (s : Session) (table : Table) :
    (∀ n : Int64, 0 ≤ n.toInt →
      (s.eval table (Number.int n).text).1 = .ok (.number (.int n)) ∧
        (s.eval table (Number.int n).text).2.2 = table) ∧
    ∀ (x : Float) (m : Nat) (q : Int), Binary64.ofFloat x = .finite false m q →
      'e'.toUInt8 ∉ (Number.float x).text →
      (s.eval table (Number.float x).text).1 = .ok (.number (.float x)) ∧
        (s.eval table (Number.float x).text).2.2 = table := by
  refine ⟨fun n h => ?_, fun x m q hx hexponent => ?_⟩
  · exact s.eval_of_number table fun skipBlanks => parse_text_int skipBlanks h
  · exact s.eval_of_number table fun skipBlanks => parse_text_float skipBlanks hx hexponent

/-- For example, the greatest integer and the double `0.1`. -/
theorem printed_numbers_read_back_of_a_tenth :
    let s := Session.ofOptions ⟨false, 0⟩
    let tenth := Float.ofBits 0x3FB999999999999A
    (s.eval Dict.empty (Text.lit "9223372036854775807")).1 =
        .ok (.number (.int 9223372036854775807)) ∧
      Binary64.ofFloat tenth = .finite false 0x1999999999999A (-56) ∧
      (Number.float tenth).text = Text.lit "0.1" ∧
      (s.eval Dict.empty (Text.lit "0.1")).1 = .ok (.number (.float tenth)) ∧
      (s.eval Dict.empty (Text.lit "0.1")).2.2 = Dict.empty := by
  intro s tenth
  obtain ⟨hint, hfloat⟩ := printed_numbers_read_back s Dict.empty
  have hgreatest : (Number.int 9223372036854775807).text = Text.lit "9223372036854775807" := by
    decide +kernel
  have hbits : Binary64.ofFloat tenth = .finite false 0x1999999999999A (-56) := by decide +kernel
  have htext : (Number.float tenth).text = Text.lit "0.1" := by decide +kernel
  have hresult := hfloat tenth _ _ hbits (by rw [htext]; decide)
  rw [htext] at hresult
  refine ⟨?_, hbits, htext, hresult⟩
  rw [← hgreatest]
  exact (hint _ (by decide)).1

end Reckon
