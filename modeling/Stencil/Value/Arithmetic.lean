import Stencil.Double.Integer
import Stencil.Value.Basic

/-!
# Numbers

Arithmetic and comparison first bring two numbers to a common form: two integers stay
integers, and if one of the two is a double then both become doubles.  Sums, differences,
products, quotients and comparisons of doubles are those of IEEE 754.
-/

namespace Stencil

/-- Two numbers in a common form. -/
inductive NumberPair where
  | integers (a b : Int64)
  | doubles (a b : Float)
deriving DecidableEq

namespace NumberPair

/-- The common form of two values, if both are numbers. -/
def of? : Value → Value → Option NumberPair
  | .integer a, .integer b => some (integers a b)
  | .double a, .double b => some (doubles a b)
  | .integer a, .double b => some (doubles (Double.ofInt a.toInt) b)
  | .double a, .integer b => some (doubles a (Double.ofInt b.toInt))
  | _, _ => none

/-- The sum. -/
def add : NumberPair → Attempt Value
  | integers a b => (Integer.add a b).map .integer
  | doubles a b => .ok (.double (a + b))

/-- The difference. -/
def subtract : NumberPair → Attempt Value
  | integers a b => (Integer.subtract a b).map .integer
  | doubles a b => .ok (.double (a - b))

/-- The product. -/
def multiply : NumberPair → Attempt Value
  | integers a b => (Integer.multiply a b).map .integer
  | doubles a b => .ok (.double (a * b))

/-- The quotient, which is always a double. -/
def divide : NumberPair → Value
  | integers a b => .double (Double.ofInt a.toInt / Double.ofInt b.toInt)
  | doubles a b => .double (a / b)

/-- The quotient rounded down, which is always an integer. -/
def floorDivide : NumberPair → Attempt Value
  | integers a b => (Integer.floorDivide a b).map .integer
  | doubles a b =>
      if Double.isZero b then fail .divisionByZero
      else (Double.toInteger Double.floor "floor division" (a / b)).map .integer

/-- The remainder with the sign of the dividend. -/
def modulo : NumberPair → Attempt Value
  | integers a b => (Integer.modulo a b).map .integer
  | doubles a b => .ok (.double (Double.remainder a b))

/-- How the first number compares with the second. -/
def compare? : NumberPair → Option Ordering
  | integers a b => some (compare a.toInt b.toInt)
  | doubles a b => Double.compare? a b

end NumberPair

theorem NumberPair.isSome_of?_iff {a b : Value} :
  (NumberPair.of? a b).isSome = true ↔ a.isNumber = true ∧ b.isNumber = true
  := by cases a <;> cases b <;> simp [of?, Value.isNumber]

end Stencil
