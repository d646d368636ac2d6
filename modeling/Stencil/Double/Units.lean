/-!
# Doubles as whole numbers of units

A double is an IEEE 754 number of 64 bits.  Every finite double is a whole number of
units, where the unit is the smallest positive double, and `one` units make the number
one.  Reading a double as its number of units, `units`, makes comparison, rounding to an
integer and the remainder exact operations on integers, and `ofUnits` goes back: it is the
double nearest to a number of units, where halfway between two doubles the one with the
even last bit is taken.

The infinities read as the first number of units that is too large for a finite double, so
that they compare with finite doubles as they should.
-/

namespace Stencil.Double

/-- How many units make the number one. -/
def one : Nat := Nat.pow 2 1074

/-- The weight of the sign bit. -/
def signBit : Nat := Nat.pow 2 63

/-- How many doubles there are from a power of two up to the next: the weight of the lowest
bit of the exponent. -/
def fractions : Nat := Nat.pow 2 52

/-- The bits of a double without its sign bit. -/
def magnitudeBits (d : Float) : Nat := d.toBits.toNat % signBit

/-- Whether the sign bit of a double is set. -/
def isNegative (d : Float) : Bool := decide (signBit ≤ d.toBits.toNat)

/-- The bits of infinity. -/
def infinityBits : Nat := 2047 * fractions

/-- Whether `d` is not a number. -/
def isNaN (d : Float) : Bool := decide (infinityBits < magnitudeBits d)

/-- Whether `d` is neither infinite nor not a number. -/
def isFinite (d : Float) : Bool := decide (magnitudeBits d < infinityBits)

/-- Whether `d` is zero, of either sign. -/
def isZero (d : Float) : Bool := magnitudeBits d == 0

/-- The double that is not a number. -/
def nan : Float := Float.ofBits 0x7FF8000000000000

/-! ### Bits and units -/

/-- The number of units of the double with the given bits and no sign: the lower 52 bits
are the fraction, the bits above are the exponent. -/
def unitsOfBits (bits : Nat) : Nat :=
  if bits < fractions then bits
  else (fractions + bits % fractions) <<< (bits / fractions - 1)

/-- The quotient of `n` by `d`, rounded to the nearest integer, and from halfway to the
even one. -/
def divRoundEven (n d : Nat) : Nat :=
  let quotient := n / d
  let rest := 2 * (n % d)
  if d < rest || (rest == d && quotient % 2 == 1) then quotient + 1 else quotient

/-- The bits of the double nearest to `n` units.  Rounding up to the next power of two
carries into the exponent, and past the last finite double into the bits of infinity. -/
def bitsOfUnits (n : Nat) : Nat :=
  let exponent := n.log2 - 52
  min (exponent * fractions + divRoundEven n (Nat.pow 2 exponent)) infinityBits

/-! ### Doubles and units -/

/-- The number of units of `d` without its sign. -/
def magnitude (d : Float) : Nat := unitsOfBits (magnitudeBits d)

/-- The number of units of `d`. -/
def units (d : Float) : Int := if isNegative d then -(magnitude d : Int) else magnitude d

/-- The double nearest to `n` units, with the given sign. -/
def ofUnits (negative : Bool) (n : Nat) : Float :=
  Float.ofBits (UInt64.ofNat ((if negative then signBit else 0) + bitsOfUnits n))

/-- The double nearest to the integer `n`. -/
def ofInt (n : Int) : Float := ofUnits (decide (n < 0)) (n.natAbs * one)

/-! ### Comparison -/

/-- How `a` compares with `b`; what is not a number compares with nothing. -/
def compare? (a b : Float) : Option Ordering :=
  if isNaN a || isNaN b then none else some (compare (units a) (units b))

theorem compare?_eq_none_iff {a b : Float} :
  compare? a b = none ↔ isNaN a = true ∨ isNaN b = true
  := by cases h : isNaN a <;> simp [compare?, h]

end Stencil.Double
