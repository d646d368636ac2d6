import Mathlib.Data.Rat.Floor
import Stencil.Double.Integer

/-!
# Doubles as rational numbers

A finite double is a rational number, its number of units over the units of one, and the roundings
of doubles are those of rational numbers (`floor_eq`, `ceil_eq`, `round_eq`).  A double has no
fractional part exactly if it is finite and this number is an integer (`isIntegral_iff`).
-/

namespace Stencil

namespace Integer

/-- A result that does not fit fails, with the operation in the failure. -/
theorem ofInt_eq_error_iff {operation : String} {n : Int} {e : Failure} :
  ofInt operation n = .error e ↔ ¬ Fits n ∧ e = ⟨.integerOverflow operation, []⟩
  := by
  unfold ofInt
  split
  · rename_i hfits
    simp [hfits]
  · rename_i hfits
    simp [hfits, fail, eq_comm]

/-- What fits is an integer of 64 bits. -/
theorem fits_iff_exists {k : ℤ} :
  Fits k ↔ ∃ n : Int64, k = n.toInt
  := by
  constructor
  · intro h
    use Int64.ofInt k
    rw [toInt_ofInt_of_fits h]
  · rintro ⟨n, rfl⟩
    apply fits_toInt

end Integer

namespace Double

/-- The rational number that a finite double is.  An infinity is the first number that is too
large for a finite double, or too small. -/
def value (d : Float) : ℚ := units d / one

theorem one_pos :
  0 < one
  := by decide +kernel

theorem natAbs_units (d : Float) :
  (units d).natAbs = magnitude d
  := by
  rw [units]
  split <;> simp

/-! ### Integers -/

/-- A double is an integer exactly if it has that many times the units of one. -/
theorem value_eq_intCast_iff {d : Float} {k : ℤ} :
  value d = k ↔ units d = k * one
  := by
  rw [value, div_eq_iff (Nat.cast_ne_zero.mpr one_pos.ne')]
  norm_cast

theorem isIntegral_iff {d : Float} :
  isIntegral d = true ↔ isFinite d = true ∧ ∃ k : ℤ, value d = k
  := by
  have hdvd : magnitude d % one = 0 ↔ ∃ k : ℤ, value d = k := by
    rw [← Nat.dvd_iff_mod_eq_zero, ← natAbs_units, ← Int.natCast_dvd]
    simp only [value_eq_intCast_iff]
    exact dvd_iff_exists_eq_mul_left
  rw [isIntegral, Bool.and_eq_true, beq_iff_eq, hdvd]

theorem truncate_of_value {d : Float} {k : ℤ} (h : value d = k) :
  truncate d = k
  := by
  rw [truncate, value_eq_intCast_iff.mp h]
  apply Int.mul_tdiv_cancel
  exact_mod_cast one_pos.ne'

/-! ### Rounding -/

/-- The integer nearest to a rational number, and from halfway between two integers the one farther
from zero. -/
def nearest (q : ℚ) : ℤ := if q < 0 then -⌊-q + 1 / 2⌋ else ⌊q + 1 / 2⌋

theorem fdiv_one_eq (n : ℤ) :
  n.fdiv one = ⌊(n / one : ℚ)⌋
  := by
  rw [Rat.floor_intCast_div_natCast]
  apply Int.fdiv_eq_ediv_of_nonneg
  exact Int.natCast_nonneg one

theorem floor_eq (d : Float) :
  floor d = ⌊value d⌋
  := fdiv_one_eq (units d)

theorem ceil_eq (d : Float) :
  ceil d = ⌈value d⌉
  := by rw [ceil, fdiv_one_eq, Int.cast_neg, neg_div, Int.floor_neg, neg_neg, value]

theorem nearest_neg (q : ℚ) :
  nearest (-q) = -nearest q
  := by
  rw [nearest, nearest, neg_neg]
  rcases lt_trichotomy q 0 with hneg | rfl | hpos
  · rw [if_neg (by linarith), if_pos hneg, neg_neg]
  · norm_num
  · rw [if_pos (by linarith), if_neg (by linarith)]

/-- A quotient is rounded as that of twice the numbers, with half of the divisor added. -/
theorem nearest_natCast_div (n : ℕ) {d : ℕ} (hd : 0 < d) :
  nearest (n / d) = ((2 * n + d) / (2 * d) : ℕ)
  := by
  have hsum : (n / d + 1 / 2 : ℚ) = ((2 * n + d : ℕ) : ℤ) / (2 * d : ℕ) := by
    push_cast
    field_simp
  have hnonneg : (0 : ℚ) ≤ n / d := by positivity
  rw [nearest, if_neg (not_lt.mpr hnonneg), hsum, Rat.floor_intCast_div_natCast]
  norm_cast

theorem round_eq (d : Float) :
  round d = nearest (value d)
  := by
  rw [round, value, units]
  split
  · rw [Int.cast_neg, neg_div, nearest_neg, Int.cast_natCast, nearest_natCast_div _ one_pos]
  · rw [Int.cast_natCast, nearest_natCast_div _ one_pos]

theorem nearest_spec_of_nonneg {q : ℚ} (hq : 0 ≤ q) :
  |q - nearest q| ≤ 1 / 2 ∧ (|q - nearest q| = 1 / 2 → |q| < |(nearest q : ℚ)|)
  := by
  rw [nearest, if_neg (not_lt.mpr hq)]
  have hle := Int.floor_le (q + 1 / 2)
  have hlt := Int.lt_floor_add_one (q + 1 / 2)
  constructor
  · rw [abs_le]
    constructor <;> linarith
  · intro htie
    have hup : (⌊q + 1 / 2⌋ : ℚ) = q + 1 / 2 := by
      rcases eq_or_eq_neg_of_abs_eq htie with h | h <;> linarith
    rw [hup, abs_of_nonneg hq, abs_of_nonneg (by linarith)]
    linarith

/-- The nearest integer is at most one half away, and if it is as far as that, then it is farther from
zero than the number. -/
theorem nearest_spec (q : ℚ) :
  |q - nearest q| ≤ 1 / 2 ∧ (|q - nearest q| = 1 / 2 → |q| < |(nearest q : ℚ)|)
  := by
  rcases le_total 0 q with hq | hq
  · exact nearest_spec_of_nonneg hq
  · have hspec := nearest_spec_of_nonneg (neg_nonneg.mpr hq)
    have hdistance : |-q - -(nearest q : ℚ)| = |q - nearest q| := by
      rw [← neg_sub_neg, abs_sub_comm, neg_neg, neg_neg, abs_sub_comm]
    rwa [nearest_neg, Int.cast_neg, hdistance, abs_neg, abs_neg] at hspec

theorem floor_le_nearest (q : ℚ) :
  ⌊q⌋ ≤ nearest q
  := by
  have hnear := abs_le.mp (nearest_spec q).1
  have hfloor := Int.floor_le q
  have hlt : (⌊q⌋ : ℚ) < nearest q + 1 := by linarith
  exact Int.lt_add_one_iff.mp (by exact_mod_cast hlt)

theorem nearest_le_ceil (q : ℚ) :
  nearest q ≤ ⌈q⌉
  := by
  have hle := floor_le_nearest (-q)
  rw [Int.floor_neg, nearest_neg] at hle
  omega

/-- The integers next to a number on both sides are the same exactly if the number is an integer. -/
theorem ceil_eq_floor_iff {q : ℚ} :
  ⌈q⌉ = ⌊q⌋ ↔ ∃ k : ℤ, q = k
  := by
  constructor
  · intro h
    use ⌊q⌋
    apply le_antisymm _ (Int.floor_le q)
    rw [← h]
    apply Int.le_ceil
  · rintro ⟨k, rfl⟩
    rw [Int.ceil_intCast, Int.floor_intCast]

/-- The integers next to a number on both sides are neighbours if they are not the same. -/
theorem ceil_sub_floor (q : ℚ) :
  ⌈q⌉ - ⌊q⌋ = 0 ∨ ⌈q⌉ - ⌊q⌋ = 1
  := by
  have hle := Int.floor_le_ceil q
  have hlt := Int.ceil_le_floor_add_one q
  omega

/-- A double fails to become an integer if it is not finite, or else if it is rounded to a number
that does not fit. -/
theorem toInteger_eq_error_iff {rounding : Float → Int} {operation : String} {d : Float}
    {e : Failure} :
  toInteger rounding operation d = .error e
    ↔ isFinite d = false ∧ e = ⟨.notANumber operation, []⟩
      ∨ isFinite d = true ∧ ¬ Integer.Fits (rounding d) ∧ e = ⟨.integerOverflow operation, []⟩
  := by
  unfold toInteger
  split
  · rename_i hfinite
    simp [hfinite, Integer.ofInt_eq_error_iff]
  · rename_i hfinite
    simp [hfinite, fail, eq_comm]

end Double

end Stencil
