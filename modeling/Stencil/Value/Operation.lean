import Stencil.Operator.Basic
import Stencil.Value.Arithmetic

/-!
# Operations on values

What the operators mean.  Addition joins display texts and equality compares them when the
two values are not both numbers; every other arithmetic operation and ordering needs two
numbers, and a gate needs two booleans.  An operation that has no meaning for its left
operand is unsupported; if the left operand is a number and the right one is not, the
types do not match.
-/

namespace Stencil

namespace Value

/-- Why an operation for numbers does not apply to two values. -/
def mismatch (operation : String) (left right : Value) : Fault :=
  if left.isNumber then .typeMismatch operation left.kindName right.kindName
  else .unsupportedOperation operation left.kindName

/-- The common form of two operands that have to be numbers. -/
def numbers (operation : String) (left right : Value) : Attempt NumberPair :=
  match NumberPair.of? left right with
  | some pair => .ok pair
  | none => fail (mismatch operation left right)

/-- The sum of two numbers, or the display texts of other values put together. -/
def add (left right : Value) : Attempt Value :=
  match NumberPair.of? left right with
  | some pair => pair.add
  | none => .ok (string (left.display ++ right.display))

/-- Whether two values are equal: as booleans, as strings, as numbers, or else by their
display texts. -/
def equals : Value → Value → Bool
  | boolean a, boolean b => a == b
  | string a, string b => a == b
  | left, right =>
      match NumberPair.of? left right with
      | some pair => pair.compare? == some .eq
      | none => left.display == right.display

/-- Whether two numbers compare in an accepted way; a comparison with what is not a number
is false. -/
def orders (operation : String) (accept : Ordering → Bool) (left right : Value) :
    Attempt Value :=
  (numbers operation left right).map fun pair => boolean (pair.compare?.any accept)

/-- A gate applied to two booleans. -/
def gate (g : Gate) (left right : Value) : Attempt Value := do
  let a ← left.truth
  let b ← right.truth
  return boolean (g.apply a b)

/-- The number of characters of a string, which is capped at the greatest integer. -/
def length : Value → Attempt Value
  | string text => .ok (integer (Int64.ofInt (min text.length Int64.maxValue.toInt)))
  | v => fail (.unsupportedOperation "length" v.kindName)

/-- The position that an index stands for: an integer, or a double without a fractional
part. -/
def position (receiver index : Value) : Attempt Int64 :=
  match index with
  | integer n => .ok n
  | double d =>
      if Double.isIntegral d then Double.toInteger Double.truncate "index_by" d
      else fail (.typeMismatch "index_by" receiver.kindName index.kindName)
  | _ => fail (.typeMismatch "index_by" receiver.kindName index.kindName)

/-- The character of a string at a position counted from zero, as a string. -/
def charAt (receiver index : Value) : Attempt Value :=
  match receiver with
  | string text => do
      let n ← position receiver index
      let characters := text.toList
      match if n < 0 then none else characters[n.toInt.toNat]? with
      | some c => return string (String.singleton c)
      | none => fail (.indexOutOfBounds n characters.length)
  | _ => fail (.unsupportedOperation "index_by" receiver.kindName)

end Value

/-- The meaning of an operator. -/
def Operator.evaluate (op : Operator) (left right : Value) : Attempt Value :=
  match op with
  | add => left.add right
  | sub => (left.numbers op.operation right).bind NumberPair.subtract
  | mul => (left.numbers op.operation right).bind NumberPair.multiply
  | div => (left.numbers op.operation right).map NumberPair.divide
  | floorDiv => (left.numbers op.operation right).bind NumberPair.floorDivide
  | mod => (left.numbers op.operation right).bind NumberPair.modulo
  | eq => .ok (.boolean (left.equals right))
  | ne => .ok (.boolean (!left.equals right))
  | gt => left.orders op.operation (· == .gt) right
  | lt => left.orders op.operation (· == .lt) right
  | ge => left.orders op.operation (· != .lt) right
  | le => left.orders op.operation (· != .gt) right
  | gate g => left.gate g right

end Stencil
