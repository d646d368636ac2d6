import Stencil.Double.Text
import Stencil.Error

/-!
# Values

A value is a string, a truth value, a double or an integer of 64 bits.  Its display text
is what it contributes to rendered output.  A double never displays like an integer.
-/

namespace Stencil

/-- What sort of value a value is. -/
inductive Kind where
  | string
  | boolean
  | double
  | integer
deriving DecidableEq

/-- The name of a kind. -/
def Kind.name : Kind → String
  | string => "string"
  | boolean => "boolean"
  | double => "double"
  | integer => "integer"

/-- A value of the template language. -/
inductive Value where
  | string (text : String)
  | boolean (b : Bool)
  | double (d : Float)
  | integer (n : Int64)
deriving DecidableEq

namespace Value

/-- What a statement amounts to that contributes nothing to the output. -/
def empty : Value := string ""

/-- The kind of a value. -/
def kind : Value → Kind
  | string _ => .string
  | boolean _ => .boolean
  | double _ => .double
  | integer _ => .integer

/-- The name of the kind of a value. -/
def kindName (v : Value) : String := v.kind.name

/-- Whether a value is a number. -/
def isNumber : Value → Bool
  | double _ => true
  | integer _ => true
  | _ => false

/-- The text of a string. -/
def text? : Value → Option String
  | string text => some text
  | _ => none

/-- The display text of a value. -/
def display : Value → String
  | string text => text
  | boolean b => if b then "true" else "false"
  | double d => Double.text d
  | integer n => toString n.toInt

/-- The truth value of a boolean; nothing else has one. -/
def truth : Value → Attempt Bool
  | boolean b => .ok b
  | v => fail (.unsupportedOperation "as_boolean" v.kindName)

/-- Whether two values are of the same kind and have the same content, where doubles are
the same when they compare as equal. -/
def same : Value → Value → Bool
  | string a, string b => a == b
  | boolean a, boolean b => a == b
  | double a, double b => Double.compare? a b == some .eq
  | integer a, integer b => a == b
  | _, _ => false

end Value

end Stencil
