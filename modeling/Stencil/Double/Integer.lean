import Stencil.Double.Rounding
import Stencil.Integer

/-!
# Integers from doubles

A double becomes an integer by a rounding.  It must be finite, and the rounded number must
fit into 64 bits: a number that is too large is refused and never replaced by the nearest
one that fits.
-/

namespace Stencil.Double

/-- The integer that a rounding gives for `d`; the operation is named in the failure. -/
def toInteger (rounding : Float → Int) (operation : String) (d : Float) : Attempt Int64 :=
  if isFinite d then Integer.ofInt operation (rounding d) else fail (.notANumber operation)

/-- A double becomes an integer exactly when it is finite and is rounded to it. -/
theorem toInteger_eq_ok_iff {rounding : Float → Int} {operation : String} {d : Float}
    {n : Int64} :
  toInteger rounding operation d = .ok n ↔ isFinite d = true ∧ rounding d = n.toInt
  := by
  unfold toInteger
  split
  · rename_i h
    simp [h, Integer.ofInt_eq_ok_iff]
  · rename_i h
    simp [h, fail]

end Stencil.Double
