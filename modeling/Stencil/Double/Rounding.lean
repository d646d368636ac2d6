import Stencil.Double.Units

/-!
# Rounding doubles to integers

Floor, ceiling, truncation, rounding and the remainder, computed exactly on the number of
units of a double.
-/

namespace Stencil.Double

/-- The greatest integer that is at most `d`, for finite `d`. -/
def floor (d : Float) : Int := (units d).fdiv one

/-- The least integer that is at least `d`, for finite `d`. -/
def ceil (d : Float) : Int := -(-units d).fdiv one

/-- The integer next to `d` in the direction of zero, for finite `d`. -/
def truncate (d : Float) : Int := (units d).tdiv one

/-- The integer nearest to `d`, and from halfway the one farther from zero, for
finite `d`. -/
def round (d : Float) : Int :=
  let n : Nat := (2 * magnitude d + one) / (2 * one)
  if isNegative d then -(n : Int) else n

/-- Whether `d` is finite and has no fractional part. -/
def isIntegral (d : Float) : Bool := isFinite d && magnitude d % one == 0

/-- The remainder of `a` by `b` with the sign of `a`; the quotient is truncated.  It is not
a number when `a` is infinite or `b` is zero. -/
def remainder (a b : Float) : Float :=
  if isNaN a || isNaN b || !isFinite a || isZero b then nan
  else ofUnits (isNegative a) (magnitude a % magnitude b)

end Stencil.Double
