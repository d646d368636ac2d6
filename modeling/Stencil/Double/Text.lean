import Stencil.Double.Shortest

/-!
# The text of a double

A double is written with its shortest decimal.  From one ten-thousandth up to ten to the
sixteenth the text is positional and always has a fractional part, so that it never looks
like an integer; smaller and larger doubles are written with an exponent.
-/

namespace Stencil.Double

/-- How finite doubles are written. -/
structure TextStyle where
  /-- The least position of the decimal point that is written positionally. -/
  leastPoint : Int
  /-- The greatest position of the decimal point that is written positionally. -/
  greatestPoint : Int
  /-- What separates the digits from the exponent. -/
  exponentMark : String

/-- From `0.0001` to below `1e16` doubles are positional. -/
def textStyle : TextStyle := ⟨-3, 16, "e"⟩

/-- The list without the zeros at its end. -/
def dropTrailingZeros (digits : List Char) : List Char :=
  (digits.reverse.dropWhile (· = '0')).reverse

/-- The digits with the decimal point after `point` of them, with at least one digit on
both sides of it. -/
def positional (digits : List Char) (point : Int) : List Char :=
  if point ≤ 0 then '0' :: '.' :: (List.replicate (-point).toNat '0' ++ digits)
  else
    let whole := digits.take point.toNat
    let fraction := digits.drop point.toNat
    whole ++ List.replicate (point.toNat - whole.length) '0' ++ '.' ::
      (if fraction = [] then ['0'] else fraction)

/-- The digits with the decimal point after the first of them, and the exponent that makes
up for it. -/
def scientific (mark : String) (digits : List Char) (point : Int) : List Char :=
  digits.take 1 ++ (if digits.drop 1 = [] then [] else '.' :: digits.drop 1)
    ++ mark.toList ++ (toString (point - 1)).toList

/-- The text of a positive decimal. -/
def Decimal.text (style : TextStyle) (x : Decimal) : List Char :=
  let all := Nat.toDigits 10 x.digits
  let digits := dropTrailingZeros all
  let point := all.length + x.exponent
  if style.leastPoint ≤ point ∧ point ≤ style.greatestPoint then positional digits point
  else scientific style.exponentMark digits point

/-- The text of the finite double with the given bits and no sign. -/
def magnitudeText (bits : Nat) : List Char :=
  if bits = 0 then ['0', '.', '0'] else (shortest bits).text textStyle

/-- The text of a double. -/
def text (d : Float) : String :=
  if isNaN d then "NaN"
  else
    let digits :=
      if isFinite d then magnitudeText (magnitudeBits d) else ['i', 'n', 'f']
    String.ofList (if isNegative d then '-' :: digits else digits)

end Stencil.Double
