import Stencil.Error

/-!
# Integers of 64 bits

Arithmetic on the integers of the template language is exact: an operation computes its
result among all integers, and fails if the result does not fit into 64 bits.
-/

namespace Stencil.Integer

/-- Whether an integer fits into 64 bits with a sign. -/
def Fits (n : Int) : Prop := Int64.minValue.toInt ≤ n ∧ n ≤ Int64.maxValue.toInt

instance (n : Int) : Decidable (Fits n) := inferInstanceAs (Decidable (_ ∧ _))

/-- The 64-bit integer equal to `n`, if it fits; the operation is named in the failure. -/
def ofInt (operation : String) (n : Int) : Attempt Int64 :=
  if Fits n then .ok (Int64.ofInt n) else fail (.integerOverflow operation)

/-- The sum. -/
def add (a b : Int64) : Attempt Int64 := ofInt "addition" (a.toInt + b.toInt)

/-- The difference. -/
def subtract (a b : Int64) : Attempt Int64 := ofInt "subtraction" (a.toInt - b.toInt)

/-- The product. -/
def multiply (a b : Int64) : Attempt Int64 := ofInt "multiplication" (a.toInt * b.toInt)

/-- The quotient, rounded towards zero. -/
def truncatedQuotient (a b : Int64) : Attempt Int64 :=
  ofInt "floor division" (a.toInt.tdiv b.toInt)

/-- Whether a quotient that is rounded towards zero is rounded up: it has a remainder, the sign
of which is not that of the divisor. -/
def roundsUp (remainder divisor : Int64) : Bool :=
  remainder != 0 && (decide (remainder < 0) != decide (divisor < 0))

/-- The quotient, rounded down: the one rounded towards zero, less one if that is rounded up. -/
def floorDivide (a b : Int64) : Attempt Int64 :=
  if b = 0 then fail .divisionByZero
  else
    (truncatedQuotient a b).bind fun quotient =>
      if roundsUp (a % b) b then ofInt "floor division" (quotient.toInt - 1) else .ok quotient

/-- The remainder with the sign of `a`; it always fits. -/
def modulo (a b : Int64) : Attempt Int64 :=
  if b = 0 then fail .moduloByZero
  else .ok (Int64.ofInt (a.toInt.tmod b.toInt))

/-- The integer without its sign. -/
def abs (n : Int64) : Attempt Int64 := ofInt "abs" n.toInt.natAbs

theorem fits_iff {n : Int} :
  Fits n ↔ -9223372036854775808 ≤ n ∧ n < 9223372036854775808
  := by
  have least : Int64.minValue.toInt = -9223372036854775808 := by decide
  have greatest : Int64.maxValue.toInt = 9223372036854775807 := by decide
  rw [Fits, least, greatest]
  omega

theorem fits_toInt (n : Int64) :
  Fits n.toInt
  := fits_iff.mpr ⟨n.le_toInt, n.toInt_lt⟩

theorem toInt_ofInt_of_fits {n : Int} (h : Fits n) :
  (Int64.ofInt n).toInt = n
  := Int64.toInt_ofInt_of_le (fits_iff.mp h).1 (fits_iff.mp h).2

/-- An integer fits exactly when there is a 64-bit integer equal to it. -/
theorem ofInt_eq_ok_iff {operation : String} {n : Int} {m : Int64} :
  ofInt operation n = .ok m ↔ n = m.toInt
  := by
  unfold ofInt
  split
  · rename_i h
    rw [Except.ok.injEq, ← Int64.toInt_inj, toInt_ofInt_of_fits h]
  · rename_i h
    simp only [fail, reduceCtorEq, false_iff]
    rintro rfl
    exact h (fits_toInt m)

end Stencil.Integer
