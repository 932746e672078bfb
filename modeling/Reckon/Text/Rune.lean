import Reckon.Text.Basic

/-!
# Runes: the characters of a text

A text is read as a sequence of runes. A rune is a character together with the bytes that spell
it; a byte that starts no well-formed UTF-8 sequence is a rune of its own, shown as `U+FFFD`.
Overlong forms, surrogates and code points above `U+10FFFF` are not well formed.

Reading goes forward (`Text.uncons`, `Text.runes`). `Text.lastWidth` looks back from a position
and tells how many bytes the rune before it takes.
-/

namespace Reckon

/-- A character of a text and the bytes that spell it there. -/
structure Rune where
  char : Char
  spelling : Text
deriving DecidableEq, Repr

namespace Rune

/-- The character shown in place of a byte that spells nothing. -/
def replacement : Char := '\uFFFD'

/-- A rune that stands for a byte outside any well-formed sequence. -/
def isInvalid (r : Rune) : Bool := r.char == replacement && r.spelling.length == 1

/-- A byte that can only continue a sequence. -/
def isTrail (b : UInt8) : Bool := 0x80 ≤ b && b ≤ 0xBF

/-- The six payload bits of a continuation byte. -/
def trailBits (b : UInt8) : Nat := b.toNat - 0x80

/-- The character spelled by two bytes. -/
def two? (b₀ b₁ : UInt8) : Option Char :=
  if 0xC2 ≤ b₀ && b₀ ≤ 0xDF && isTrail b₁ then
    some (Char.ofNat ((b₀.toNat - 0xC0) * 64 + trailBits b₁))
  else none

/-- The character spelled by three bytes; the bounds on the second byte keep out overlong forms
and surrogates. -/
def three? (b₀ b₁ b₂ : UInt8) : Option Char :=
  let low : UInt8 := if b₀ == 0xE0 then 0xA0 else 0x80
  let high : UInt8 := if b₀ == 0xED then 0x9F else 0xBF
  if 0xE0 ≤ b₀ && b₀ ≤ 0xEF && low ≤ b₁ && b₁ ≤ high && isTrail b₂ then
    some (Char.ofNat ((b₀.toNat - 0xE0) * 4096 + trailBits b₁ * 64 + trailBits b₂))
  else none

/-- The character spelled by four bytes; the bounds on the second byte keep out overlong forms
and code points above `U+10FFFF`. -/
def four? (b₀ b₁ b₂ b₃ : UInt8) : Option Char :=
  let low : UInt8 := if b₀ == 0xF0 then 0x90 else 0x80
  let high : UInt8 := if b₀ == 0xF4 then 0x8F else 0xBF
  if 0xF0 ≤ b₀ && b₀ ≤ 0xF4 && low ≤ b₁ && b₁ ≤ high && isTrail b₂ && isTrail b₃ then
    some (Char.ofNat ((b₀.toNat - 0xF0) * 262144 + trailBits b₁ * 4096 + trailBits b₂ * 64
      + trailBits b₃))
  else none

/-- The rune of two to four bytes at the start of `b₀ :: rest`, with what follows it. -/
def multibyte? (b₀ : UInt8) : Text → Option (Rune × Text)
  | [] => none
  | b₁ :: r₁ =>
    match two? b₀ b₁ with
    | some c => some (⟨c, [b₀, b₁]⟩, r₁)
    | none =>
      match r₁ with
      | [] => none
      | b₂ :: r₂ =>
        match three? b₀ b₁ b₂ with
        | some c => some (⟨c, [b₀, b₁, b₂]⟩, r₂)
        | none =>
          match r₂ with
          | [] => none
          | b₃ :: r₃ => (four? b₀ b₁ b₂ b₃).map fun c => (⟨c, [b₀, b₁, b₂, b₃]⟩, r₃)

/-- **What a longer rune is read from**: the least number of bytes that spell one, from two to
four. -/
theorem multibyte?_eq_some_cases {b₀ : UInt8} {t rest : Text} {r : Rune}
    (h : multibyte? b₀ t = some (r, rest)) :
    (∃ b₁ c, two? b₀ b₁ = some c ∧ t = b₁ :: rest ∧ r = ⟨c, [b₀, b₁]⟩) ∨
      (∃ b₁ b₂ c, two? b₀ b₁ = none ∧ three? b₀ b₁ b₂ = some c ∧ t = b₁ :: b₂ :: rest ∧
        r = ⟨c, [b₀, b₁, b₂]⟩) ∨
      ∃ b₁ b₂ b₃ c, two? b₀ b₁ = none ∧ three? b₀ b₁ b₂ = none ∧ four? b₀ b₁ b₂ b₃ = some c ∧
        t = b₁ :: b₂ :: b₃ :: rest ∧ r = ⟨c, [b₀, b₁, b₂, b₃]⟩ := by
  unfold multibyte? at h
  split at h
  · contradiction
  · split at h
    · rename_i h₂
      cases h
      exact .inl ⟨_, _, h₂, rfl, rfl⟩
    · rename_i h₂
      split at h
      · contradiction
      · split at h
        · rename_i h₃
          cases h
          exact .inr (.inl ⟨_, _, _, h₂, h₃, rfl, rfl⟩)
        · rename_i h₃
          split at h
          · contradiction
          · obtain ⟨c, h₄, hc⟩ := Option.map_eq_some_iff.mp h
            cases hc
            exact .inr (.inr ⟨_, _, _, _, h₂, h₃, h₄, rfl, rfl⟩)

/-- A longer rune is a cut of the text it was read from. -/
theorem append_of_multibyte? {b₀ : UInt8} {t rest : Text} {r : Rune}
    (h : multibyte? b₀ t = some (r, rest)) :
    r.spelling ++ rest = b₀ :: t ∧ 2 ≤ r.spelling.length := by
  obtain ⟨_, _, -, rfl, rfl⟩ | ⟨_, _, _, -, -, rfl, rfl⟩ | ⟨_, _, _, _, -, -, -, rfl, rfl⟩ :=
    multibyte?_eq_some_cases h <;> simp

end Rune

namespace Text

/-- The first rune of a text, with the text after it. -/
def uncons : Text → Option (Rune × Text)
  | [] => none
  | b :: rest =>
    if b < 0x80 then some (⟨Char.ofNat b.toNat, [b]⟩, rest)
    else some ((Rune.multibyte? b rest).getD (⟨Rune.replacement, [b]⟩, rest))

/-- **What the first rune of a text is read from**: an ASCII byte, another byte that starts no
longer rune, or the bytes of a longer rune. -/
theorem uncons_eq_some_cases {t rest : Text} {r : Rune} (h : t.uncons = some (r, rest)) :
    (∃ b, b < 0x80 ∧ t = b :: rest ∧ r = ⟨Char.ofNat b.toNat, [b]⟩) ∨
      (∃ b, ¬ b < 0x80 ∧ Rune.multibyte? b rest = none ∧ t = b :: rest ∧
        r = ⟨Rune.replacement, [b]⟩) ∨
      ∃ b tail, ¬ b < 0x80 ∧ Rune.multibyte? b tail = some (r, rest) ∧ t = b :: tail := by
  unfold uncons at h
  split at h
  · contradiction
  · rename_i b tail
    split at h
    · rename_i hb
      cases h
      exact .inl ⟨b, hb, rfl, rfl⟩
    · rename_i hb
      rcases hm : Rune.multibyte? b tail with _ | ⟨r', rest'⟩ <;> rw [hm] at h <;> cases h
      · exact .inr (.inl ⟨b, hb, hm, rfl, rfl⟩)
      · exact .inr (.inr ⟨b, tail, hb, hm, rfl⟩)

/-- The first rune and the rest of a text make up the text, and the rune takes a byte or more. -/
theorem append_of_uncons {t rest : Text} {r : Rune} (h : t.uncons = some (r, rest)) :
    r.spelling ++ rest = t ∧ 0 < r.spelling.length := by
  obtain ⟨b, -, rfl, rfl⟩ | ⟨b, -, -, rfl, rfl⟩ | ⟨b, tail, -, hm, rfl⟩ := uncons_eq_some_cases h
  · exact ⟨rfl, Nat.one_pos⟩
  · exact ⟨rfl, Nat.one_pos⟩
  · obtain ⟨happ, hlen⟩ := Rune.append_of_multibyte? hm
    exact ⟨happ, by omega⟩

/-- Reading a rune leaves less to read. -/
theorem length_of_uncons {t rest : Text} {r : Rune} (h : t.uncons = some (r, rest)) :
    rest.length < t.length := by
  obtain ⟨happ, hpos⟩ := append_of_uncons h
  have := congrArg List.length happ
  simp only [List.length_append] at this
  omega

/-- The runes of a text, in order. -/
def runes (t : Text) : List Rune :=
  match _h : t.uncons with
  | none => []
  | some (r, rest) => r :: runes rest
termination_by t.length
decreasing_by exact length_of_uncons _h

/-- The characters of a text, with `U+FFFD` for every byte that spells none. -/
def chars (t : Text) : List Char := t.runes.map Rune.char

/-- Whether the text is well-formed UTF-8. -/
def isValid (t : Text) : Bool := t.runes.all fun r => !r.isInvalid

/-- The text with every byte that spells no character replaced by `U+FFFD`. -/
def repaired (t : Text) : Text := ofChars t.chars

/-- How many bytes the last rune takes, in a text given last byte first: the shortest stretch
from a leading byte to the end that reads as exactly one rune, and a single byte when the
nearest leading byte starts no such stretch. -/
def lastWidth : Text → Nat
  | [] => 0
  | b :: before =>
    if b < 0x80 then 1
    else
      match (before.take 3).findIdx? fun lead => !Rune.isTrail lead with
      | none => 1
      | some k =>
        let stretch : Text := (b :: before.take (k + 1)).reverse
        match stretch.uncons with
        | some (_, []) => stretch.length
        | _ => 1

end Text

end Reckon
