import Stencil.Double.Units

/-!
# Shortest decimals

The shortest decimal of a double is the decimal with the fewest digits among those that
are nearer to this double than to any other; a decimal halfway between two doubles belongs
to the one with the even last bit.  With that number of digits there may be more than one
such decimal, and the nearest to the double is taken.

For a given place of the last digit, a decimal nearest to a number is one of its two
neighbours on the grid of decimals with that last place, so it is enough to look at those
two.
-/

namespace Stencil.Double

/-- The number `digits * 10 ^ exponent`. -/
structure Decimal where
  digits : Nat
  exponent : Int
deriving DecidableEq

/-- The numbers that round to a given double, measured in half units: those between `lo`
and `hi`, with both ends if `closed`. -/
structure Interval where
  lo : Nat
  hi : Nat
  closed : Bool

namespace Interval

/-- The numbers that round to the double with the given bits. -/
def ofBits (bits : Nat) : Interval where
  lo := unitsOfBits (bits - 1) + unitsOfBits bits
  hi := unitsOfBits bits + unitsOfBits (bits + 1)
  closed := bits % 2 == 0

/-- Whether the number `x / scale` lies in the interval. -/
def contains (i : Interval) (x scale : Nat) : Bool :=
  if i.closed then decide (i.lo * scale ≤ x) && decide (x ≤ i.hi * scale)
  else decide (i.lo * scale < x) && decide (x < i.hi * scale)

end Interval

/-- The multiple of `10 ^ exponent` nearest to the double with the given bits, if it rounds
to this double.  From halfway the greater one is taken. -/
def nearestOnGrid? (bits : Nat) (exponent : Int) : Option Nat :=
  let range := Interval.ofBits bits
  let scale := Nat.pow 10 (-exponent).toNat
  let step := 2 * one * Nat.pow 10 exponent.toNat
  let value := 2 * unitsOfBits bits * scale
  let below := value / step
  let above := below + 1
  match range.contains (below * step) scale, range.contains (above * step) scale with
  | true, true => some (if value - below * step < above * step - value then below else above)
  | true, false => some below
  | false, true => some above
  | false, false => none

/-- The number of digits before the decimal point of the double with the given bits; it is
not positive for a number below one.  The factor makes the quotient positive for
every positive double. -/
def pointPosition (bits : Nat) : Int :=
  (Nat.toDigits 10 (unitsOfBits bits * Nat.pow 10 400 / one)).length - 400

/-- The shortest decimal of the positive double with the given bits.  Seventeen digits are
enough for every double; the last resort is the exact value. -/
def shortest (bits : Nat) : Decimal :=
  let point := pointPosition bits
  let candidate (count : Nat) : Option Decimal :=
    let exponent := point - (count + 1)
    (nearestOnGrid? bits exponent).map fun digits => ⟨digits, exponent⟩
  ((List.range 17).findSome? candidate).getD ⟨unitsOfBits bits * Nat.pow 5 1074, -1074⟩

end Stencil.Double
