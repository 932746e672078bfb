import Reckon.Decimal.Binary64

/-!
# Decimals without a sign

The double nearest to a decimal is computed without any sign, so a decimal that is written without
one never denotes a negative number (`Binary64.isUnsigned_ofScientific`). A short decimal is the
quotient of an integer and a power of ten, and any other one is rounded from the exact fraction.
Neither the rounding nor the division makes a sign of its own.
-/

namespace Reckon

open Float.Model

namespace Unpacked

/-- A float that has no minus sign. -/
def IsUnsigned : UnpackedFloat → Prop
  | .infinity sign | .zero sign | .finite sign _ _ _ => sign = .positive
  | .notANumber => True

variable {spec : Format} {a b : UnpackedFloat}

/-! ### Operations -/

theorem isUnsigned_dite {p : Prop} [Decidable p] {a : p → UnpackedFloat} {b : ¬ p → UnpackedFloat}
    (ha : ∀ h, IsUnsigned (a h)) (hb : ∀ h, IsUnsigned (b h)) : IsUnsigned (dite p a b) := by
  by_cases h : p
  · rw [dif_pos h]
    exact ha h
  · rw [dif_neg h]
    exact hb h

/-- What is rounded is zero or finite, with the sign that it was given. -/
theorem isUnsigned_roundWithAccuracy (m : Nat) (e : Int) (accuracy : UnpackedFloat.Accuracy) :
    IsUnsigned (UnpackedFloat.roundWithAccuracy spec .positive m e accuracy) :=
  isUnsigned_dite (fun _ => rfl) fun _ => rfl

theorem isUnsigned_ofNat (n : Nat) : IsUnsigned (UnpackedFloat.ofNat spec n) := by
  unfold UnpackedFloat.ofNat UnpackedFloat.ofInt UnpackedFloat.normalize
  split
  · rename_i hlt
    exact absurd (Int.compare_eq_lt.mp hlt) (Int.not_lt.mpr (Int.natCast_nonneg n))
  · rfl
  · exact isUnsigned_roundWithAccuracy _ _ _

theorem IsUnsigned.div (ha : IsUnsigned a) (hb : IsUnsigned b) :
    IsUnsigned (UnpackedFloat.div spec a b) := by
  cases a <;> cases b <;> try exact trivial
  all_goals
    cases ha
    cases hb
  case finite.finite => exact isUnsigned_roundWithAccuracy _ _ _
  all_goals rfl

theorem isUnsigned_ofScientific (m : Nat) (e : Int) :
    IsUnsigned (UnpackedFloat.ofScientific spec m e) := by
  unfold UnpackedFloat.ofScientific
  refine isUnsigned_dite (fun _ => rfl) fun hm => ?_
  refine iteInduction (motive := IsUnsigned) (fun _ => rfl) fun _ => ?_
  refine iteInduction (motive := IsUnsigned) (fun _ => rfl) fun _ => ?_
  refine iteInduction (motive := IsUnsigned) (fun _ => ?_) fun _ => ?_
  · exact isUnsigned_roundWithAccuracy _ _ _
  · exact IsUnsigned.div rfl rfl

/-! ### Bits -/

theorem packComponents_lt (e : BitVec 11) (m : BitVec 52) :
    (UnpackedFloat.packComponents .binary64 .positive e m).toNat < 0x8000000000000000 := by
  have hmsb : (UnpackedFloat.packComponents .binary64 .positive e m).msb = false := by
    rw [UnpackedFloat.packComponents, BitVec.msb_append, BitVec.msb_append]
    rfl
  have hlt : 2 * _ < 0x10000000000000000 := BitVec.msb_eq_false_iff_two_mul_lt.mp hmsb
  omega

/-- Without a minus sign, the first bit is not set. -/
theorem IsUnsigned.pack_lt (ha : IsUnsigned a) :
    (UnpackedFloat.pack .binary64 a).toNat < 0x8000000000000000 := by
  cases a with
  | notANumber => exact packComponents_lt _ _
  | infinity sign =>
    cases ha
    exact packComponents_lt _ _
  | zero sign =>
    cases ha
    exact packComponents_lt _ _
  | finite sign m e hm =>
    cases ha
    unfold UnpackedFloat.pack
    dsimp only
    split
    · exact packComponents_lt _ _
    · split
      · exact packComponents_lt _ _
      · exact packComponents_lt _ _

/-- Where the first bit is not set, there is no minus sign. -/
theorem isUnsigned_unpack {bits : BitVec 64} (h : bits.toNat < 0x8000000000000000) :
    IsUnsigned (UnpackedFloat.unpack .binary64 bits) := by
  have hbit : @UnpackedFloat.unpackSign .binary64 bits = 0#1 := by
    refine BitVec.eq_of_toNat_eq ?_
    have hfirst : bits.toNat >>> 63 = 0 := by
      rw [Nat.shiftRight_eq_div_pow]
      exact Nat.div_eq_of_lt h
    have hextract : (@UnpackedFloat.unpackSign .binary64 bits).toNat = (bits.toNat >>> 63) % 2 :=
      BitVec.extractLsb_toNat 63 63 bits
    rw [hextract, hfirst]
    rfl
  have hsign : UnpackedFloat.Sign.ofBitVec (@UnpackedFloat.unpackSign .binary64 bits) =
      .positive := if_pos hbit
  unfold UnpackedFloat.unpack
  refine iteInduction (motive := IsUnsigned) (fun _ => ?_) fun _ => ?_
  · exact iteInduction (motive := IsUnsigned) (fun _ => hsign) fun _ => trivial
  · refine iteInduction (motive := IsUnsigned) (fun _ => ?_) fun _ => hsign
    exact isUnsigned_dite (fun _ => hsign) fun _ => hsign

end Unpacked

/-! ### Doubles -/

namespace Binary64

open Unpacked

/-- The first bit of a double is not set. -/
def IsUnsigned (x : Float) : Prop := x.toBits.toNat < 0x8000000000000000

theorem isUnsigned_pack {a : UnpackedFloat} (ha : Unpacked.IsUnsigned a) :
    IsUnsigned (.ofModel (Float.Model.pack a)) := ha.pack_lt

theorem isUnsigned_ofBits {bits : UInt64} (h : bits.toNat < 0x8000000000000000) :
    IsUnsigned (Float.ofBits bits) := isUnsigned_pack (isUnsigned_unpack h)

theorem IsUnsigned.div {x y : Float} (hx : IsUnsigned x) (hy : IsUnsigned y) :
    IsUnsigned (x / y) :=
  isUnsigned_pack ((isUnsigned_unpack hx).div (isUnsigned_unpack hy))

theorem isUnsigned_powersOfTen :
    ∀ x ∈ Float.exactlyRepresentablePowersOfTen, IsUnsigned x := by
  simp only [Float.exactlyRepresentablePowersOfTen, List.mem_toArray, List.forall_mem_cons]
  repeat' apply And.intro
  all_goals first | exact isUnsigned_ofBits (by decide) | simp

/-- The double nearest to a decimal has no sign. -/
theorem isUnsigned_ofScientific (m e : Nat) : IsUnsigned (Float.ofScientific m true e) := by
  unfold Float.ofScientific
  split
  · -- few digits: an integer divided by a power of ten
    refine IsUnsigned.div (isUnsigned_pack (isUnsigned_ofNat _)) ?_
    exact isUnsigned_powersOfTen _ (Array.getElem_mem _)
  · exact isUnsigned_pack (Unpacked.isUnsigned_ofScientific m _)

/-- **A finite double without a sign is not negative.** -/
theorem exists_of_isUnsigned {x : Float} (hx : IsUnsigned x)
    (hfinite : (ofFloat x).isFinite = true) : ∃ m q, ofFloat x = .finite false m q := by
  have hsign : (x.toBits.toNat / 0x8000000000000000 == 1) = false := by
    rw [Nat.div_eq_of_lt hx]
    rfl
  unfold ofFloat ofBits at hfinite ⊢
  dsimp only at hfinite ⊢
  rw [hsign] at hfinite ⊢
  split at hfinite
  · split at hfinite <;> cases hfinite
  · rename_i hexponent
    rw [if_neg hexponent]
    split
    · exact ⟨_, _, rfl⟩
    · exact ⟨_, _, rfl⟩

end Binary64

end Reckon
