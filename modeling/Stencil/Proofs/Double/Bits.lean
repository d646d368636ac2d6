import Mathlib
import Stencil.Double.Units

/-!
# Doubles and their bits

A double is made from bits and gives its bits back.  All bits that do not stand for something
that is not a number come back as they are (`toBits_ofBits`).  So the double made for a number of
units has the bits that were worked out for it, and it is a number.
-/

namespace Stencil.Double

/-! ### The bits of a double -/

theorem signBit_eq :
  signBit = 9223372036854775808
  := rfl

theorem fractions_eq :
  fractions = 4503599627370496
  := rfl

theorem infinityBits_eq :
  infinityBits = 9218868437227405312
  := rfl

/-- The bits of a number, an infinity among them, are kept. -/
theorem toBits_ofBits {b : UInt64} (h : b.toNat % signBit ≤ infinityBits) :
  (Float.ofBits b).toBits = b
  := by
  apply UInt64.toBitVec_inj.mp
  apply (@Float.Model.UnpackedFloat.pack_unpack .binary64 b.toBitVec (by decide)).trans
  apply if_neg
  -- Otherwise the exponent has all bits set, and the fraction is not zero.
  rw [Float.Model.UnpackedFloat.isNaNBits, decide_eq_true_eq]
  rintro ⟨hexponent, hfraction⟩
  apply hfraction
  replace hexponent := congrArg BitVec.toNat hexponent
  apply BitVec.eq_of_toNat_eq
  rw [Float.Model.UnpackedFloat.unpackExponent_def, BitVec.extractLsb'_toNat,
    Nat.shiftRight_eq_div_pow] at hexponent
  rw [Float.Model.UnpackedFloat.unpackMantissa_def, BitVec.extractLsb'_toNat, Nat.shiftRight_zero]
  change b.toNat / 4503599627370496 % 2048 = 2047 at hexponent
  change b.toNat % 4503599627370496 = 0
  rw [signBit_eq, infinityBits_eq] at h
  omega

/-- There are two zeros. -/
theorem isZero_iff {d : Float} :
  isZero d = true ↔ d = 0.0 ∨ d = -0.0
  := by
  have hpositive : (0.0 : Float).toBits = 0 := by decide
  have hnegative : (-0.0 : Float).toBits = 9223372036854775808 := by decide
  have hbits : isZero d = true ↔ d.toBits = 0 ∨ d.toBits = 9223372036854775808 := by
    have hlt := d.toBits.toNat_lt
    rw [isZero, magnitudeBits, signBit_eq, beq_iff_eq, ← UInt64.toNat_inj, ← UInt64.toNat_inj]
    simp only [UInt64.toNat_ofNat]
    omega
  rw [hbits, ← hpositive, ← hnegative, Float.toBits_inj, Float.toBits_inj]

/-- The infinite doubles. -/
def infinities : List Float := [1.0 / 0.0, -1.0 / 0.0]

theorem isFinite_eq_false_iff {d : Float} :
  isFinite d = false ↔ isNaN d = true ∨ d ∈ infinities
  := by
  have hpositive : (1.0 / 0.0 : Float).toBits = 9218868437227405312 := by decide
  have hnegative : (-1.0 / 0.0 : Float).toBits = 18442240474082181120 := by decide
  have hbits : isFinite d = false
      ↔ isNaN d = true ∨ d.toBits = 9218868437227405312 ∨ d.toBits = 18442240474082181120 := by
    have hlt := d.toBits.toNat_lt
    rw [isFinite, isNaN, magnitudeBits, signBit_eq, infinityBits_eq, decide_eq_false_iff_not,
      decide_eq_true_eq, ← UInt64.toNat_inj, ← UInt64.toNat_inj]
    simp only [UInt64.toNat_ofNat]
    omega
  rw [hbits, ← hpositive, ← hnegative, Float.toBits_inj, Float.toBits_inj]
  simp [infinities]

/-! ### The double made for a number of units -/

section Units

variable (negative : Bool) (n : Nat)

theorem bitsOfUnits_le :
  bitsOfUnits n ≤ infinityBits
  := Nat.min_le_right _ _

theorem toNat_toBits_ofUnits :
  (ofUnits negative n).toBits.toNat = (if negative then signBit else 0) + bitsOfUnits n
  := by
  generalize hs : (if negative then signBit else 0) = sign
  have hsign : sign = 0 ∨ sign = signBit := by
    subst hs
    cases negative
    · exact .inl rfl
    · exact .inr rfl
  have hle := bitsOfUnits_le n
  rw [infinityBits_eq] at hle
  rw [signBit_eq] at hsign
  have hbits : (UInt64.ofNat (sign + bitsOfUnits n)).toNat = sign + bitsOfUnits n := by
    apply UInt64.toNat_ofNat_of_lt'
    rw [UInt64.size]
    omega
  have hnumber : (sign + bitsOfUnits n) % signBit ≤ infinityBits := by
    rw [signBit_eq, infinityBits_eq]
    omega
  rw [ofUnits, hs, toBits_ofBits (by rwa [hbits]), hbits]

@[simp]
theorem magnitudeBits_ofUnits :
  magnitudeBits (ofUnits negative n) = bitsOfUnits n
  := by
  have hle := bitsOfUnits_le n
  rw [infinityBits_eq] at hle
  rw [magnitudeBits, toNat_toBits_ofUnits]
  cases negative
  · rw [if_neg Bool.false_ne_true, Nat.zero_add, signBit_eq]
    omega
  · rw [if_pos rfl, Nat.add_mod_left, signBit_eq]
    omega

@[simp]
theorem isNegative_ofUnits :
  isNegative (ofUnits negative n) = negative
  := by
  have hle := bitsOfUnits_le n
  rw [infinityBits_eq] at hle
  rw [isNegative, toNat_toBits_ofUnits]
  cases negative
  · simp only [Bool.false_eq_true, if_false, decide_eq_false_iff_not, signBit_eq]
    omega
  · simp only [if_true, decide_eq_true_eq]
    omega

/-- It is a number. -/
@[simp]
theorem isNaN_ofUnits :
  isNaN (ofUnits negative n) = false
  := by
  rw [isNaN, magnitudeBits_ofUnits, decide_eq_false_iff_not, Nat.not_lt]
  apply bitsOfUnits_le

theorem units_ofUnits :
  units (ofUnits negative n)
    = if negative then -(unitsOfBits (bitsOfUnits n) : Int) else unitsOfBits (bitsOfUnits n)
  := by rw [units, isNegative_ofUnits, magnitude, magnitudeBits_ofUnits]

end Units

end Stencil.Double
