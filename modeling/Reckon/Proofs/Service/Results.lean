import Reckon.Proofs.Decimal.Written
import Reckon.Proofs.Service.FrontEnds
import Reckon.Proofs.Session.ReadBack

/-!
# Results determine values

What a client learns about a value says which value it is. The number that a result holds is not
enough: infinities and NaN have none, and 5 and 5.0 are the same number in a document. The kind is
not enough either, because that of an assignment does not tell what was assigned. But how the value
is written is (`Value.IsResult.text_inj`):

* no two numbers are written alike;
* a truth value is written with letters that no number is written with (`Number.all_text`);
* the confirmation of an assignment is the only result with a blank in it. Its name has none, so
  the first blank stands behind the name.
-/

namespace Reckon

/-! ### How results are written -/

/-- The bytes of numbers: those of numerals, and of the words for infinities and NaN. -/
def Number.isTextByte (b : UInt8) : Bool :=
  Text.isNumeralByte b || (Text.lit "InfNa").contains b

theorem Number.all_text (x : Number) : x.text.all isTextByte = true := by
  have hnumeral {t : Text} (h : t.all Text.isNumeralByte = true) : t.all isTextByte = true := by
    refine List.all_eq_true.mpr fun b hb => ?_
    rw [isTextByte, List.all_eq_true.mp h b hb, Bool.true_or]
  cases x with
  | int n =>
    refine hnumeral (List.all_eq_true.mpr fun b hb => ?_)
    have hdigits := (Text.isDigits_ofNat n.toInt.natAbs).digits
    rw [text, Text.ofInt] at hb
    split at hb
    · rcases List.mem_cons.mp hb with rfl | hb
      · rfl
      · exact Text.isNumeralByte_of_isDigitByte (hdigits b hb)
    · exact Text.isNumeralByte_of_isDigitByte (hdigits b hb)
  | float x =>
    have hformat := FloatLayout.result.all_format x
    rw [text]
    cases hx : Binary64.ofFloat x with
    | finite negative m q =>
      rw [hx] at hformat
      exact hnumeral hformat
    | infinite negative =>
      rw [FloatLayout.format, hx]
      cases negative <;> decide
    | nan =>
      rw [FloatLayout.format, hx]
      decide

namespace Value

/-- What an equation can result in: a number, a truth value, or the assignment of a number to a
name. -/
def IsResult : Value → Prop
  | number _ | bool _ => True
  | assignment name value => name.IsName ∧ ∃ x, value = number x

theorem blank_mem_text (name : Text) (value : Value) :
    ' '.toUInt8 ∈ (assignment name value).text :=
  List.mem_append_left _ (List.mem_append_right _ (by decide))

/-- Only confirmations are written with a blank. -/
theorem blank_not_mem_text {v : Value} (h : v.isAssignment = false) : ' '.toUInt8 ∉ v.text := by
  cases v with
  | number x =>
    intro hmem
    exact absurd (List.all_eq_true.mp x.all_text _ hmem) (by decide)
  | bool b => cases b <;> decide
  | assignment => cases h

theorem text_number_ne_text_bool (x : Number) (b : Bool) : (number x).text ≠ (bool b).text := by
  intro h
  have hall : (bool b).text.all Number.isTextByte = true := h ▸ x.all_text
  cases b <;> exact absurd hall (by decide)

namespace IsResult

variable {v v' : Value}

/-- **How a result is written tells which value it is.** -/
theorem text_inj (h : v.IsResult) (h' : v'.IsResult) (htext : v.text = v'.text) : v = v' := by
  cases v with
  | number x =>
    cases v' with
    | number y => rw [Number.text_injective htext]
    | bool b => exact absurd htext (text_number_ne_text_bool x b)
    | assignment name value =>
      exact absurd (htext ▸ blank_mem_text name value) (blank_not_mem_text rfl)
  | bool b =>
    cases v' with
    | number x => exact absurd htext.symm (text_number_ne_text_bool x b)
    | bool b' => cases b <;> cases b' <;> first | rfl | cases htext
    | assignment name value =>
      exact absurd (htext ▸ blank_mem_text name value) (blank_not_mem_text rfl)
  | assignment name value =>
    cases v' with
    | number | bool =>
      exact absurd (htext ▸ blank_mem_text name value) (blank_not_mem_text rfl)
    | assignment name' value' =>
      obtain ⟨hname, x, rfl⟩ := h
      obtain ⟨hname', y, rfl⟩ := h'
      have hblank {name : Text} (h : name.IsName) : ' '.toUInt8 ∉ name :=
        h.not_mem (by decide) (by decide) (by decide)
      simp only [text, List.append_assoc] at htext
      obtain ⟨rfl, hrest⟩ := Text.append_cons_inj (hblank hname) (hblank hname') htext
      have hsame : x.text = y.text := List.append_cancel_left hrest
      rw [Number.text_injective hsame]

end IsResult

end Value

/-! ### What a client learns -/

/-- An equation results in what an equation can result in. -/
theorem Session.isResult_of_eval {s : Session} {table : Table} {equation : Text} {v : Value}
    (hplain : Plain table) (h : (s.eval table equation).1 = .ok v) : v.IsResult := by
  rcases heval : s.eval table equation with ⟨result, s', after⟩
  rw [heval] at h
  obtain rfl : result = .ok v := h
  have hwrote := wrote_of_eval hplain heval
  cases v with
  | number | bool => trivial
  | assignment name value => exact ⟨isName_of_eval hplain heval, hwrote.1⟩

/-- **The fields of a result determine the value.** Two equations have been evaluated, by any
sessions, on tables of numbers (or at least without confirmations). If kind, name, value and
printed form of what clients learn about the two results are the same, so are the results: the same
kind, the same integer, the same double or truth value, and for assignments the same name and the
same assigned value. -/
theorem results_determine_values {s s' : Session} {table table' : Table} {equation equation' : Text}
    {v v' : Value} (hplain : Plain table) (hplain' : Plain table')
    (h : (s.eval table equation).1 = .ok v) (h' : (s'.eval table' equation').1 = .ok v')
    (session session' : Text)
    (hsame : let r := EvalResult.ofValue session equation v
      let r' := EvalResult.ofValue session' equation' v'
      r.kind = r'.kind ∧ r.name = r'.name ∧ r.value = r'.value ∧ r.result = r'.result) :
    v = v' := by
  obtain ⟨-, -, -, hresult⟩ := hsame
  rw [EvalResult.result_ofValue, EvalResult.result_ofValue] at hresult
  exact (Session.isResult_of_eval hplain h).text_inj (Session.isResult_of_eval hplain' h') hresult

/-- For example, two variables that stand for infinity, which has no number in a document. -/
theorem results_determine_values_of_infinity :
    let infinity : Number := .float (Float.ofBits 0x7FF0000000000000)
    let table (name : Text) : Table := Dict.empty.insert name (.number infinity)
    let s := Session.ofOptions ⟨true, 0⟩
    let r := EvalResult.ofValue (Text.lit "default") (Text.lit "a") (.number infinity)
    let r' := EvalResult.ofValue (Text.lit "other") (Text.lit "b") (.number infinity)
    (s.eval (table (Text.lit "a")) (Text.lit "a")).1 = .ok (.number infinity) ∧
      (s.eval (table (Text.lit "b")) (Text.lit "b")).1 = .ok (.number infinity) ∧
      r.value = none ∧ r.result = Text.lit "+Inf" ∧
      (r.kind = r'.kind ∧ r.name = r'.name ∧ r.value = r'.value ∧ r.result = r'.result) ∧
      Value.number infinity = .number infinity := by
  intro infinity table s r r'
  have hname (b : UInt8) (hlow : b < 0x80) (hletter : Text.isLetter (Char.ofNat b.toNat) = true) :
      Text.IsName [b] := by
    refine ⟨⟨Char.ofNat b.toNat, [b]⟩, [], ?_, hletter, by simp⟩
    rw [Text.runes_of_ascii (by simpa using hlow)]
    rfl
  have hreadable (b : UInt8) (h : Text.IsName [b]) : Readable (table [b]) :=
    readable_empty.insert h infinity
  have heval (b : UInt8) (h : Text.IsName [b]) :
      (s.eval (table [b]) [b]).1 = .ok (.number infinity) := by
    refine (Calculator.eval_name (c := ⟨s, table [b]⟩) (hreadable b h) ?_).1
    rw [Dict.find?_insert, if_pos rfl]
  have ha := hname 97 (by decide) (by decide)
  have hb := hname 98 (by decide) (by decide)
  have hsame : r.kind = r'.kind ∧ r.name = r'.name ∧ r.value = r'.value ∧ r.result = r'.result :=
    ⟨rfl, rfl, rfl, rfl⟩
  exact ⟨heval 97 ha, heval 98 hb, by decide, by decide, hsame,
    results_determine_values (hreadable 97 ha).plain (hreadable 98 hb).plain (heval 97 ha)
      (heval 98 hb) (Text.lit "default") (Text.lit "other") hsame⟩

end Reckon
