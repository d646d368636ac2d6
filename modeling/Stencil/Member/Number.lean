import Stencil.Double.Integer
import Stencil.Member.Basic

/-!
# Members of numbers

`round`, `floor` and `ceil` turn a double into an integer, and `abs` takes the sign off an
integer.
-/

namespace Stencil.Member

/-- What a body for another kind of receiver says. -/
def notAMember {count : Nat} (c : Invocation) : Body count :=
  .done (fail (.undefinedMember c.name c.receiver.kindName))

/-- The member that rounds a double to an integer. -/
def rounding (name : String) (round : Float → Int) : Member where
  name := name
  arity := .nullary
  body c _ :=
    match c.receiver with
    | .double d => .done (.ofValue ((Double.toInteger round c.name d).map .integer))
    | _ => notAMember c

/-- The nearest integer, and from halfway the one farther from zero. -/
def round : Member := rounding "round" Double.round

/-- The nearest integer below. -/
def floor : Member := rounding "floor" Double.floor

/-- The nearest integer above. -/
def ceil : Member := rounding "ceil" Double.ceil

/-- The integer without its sign. -/
def abs : Member where
  name := "abs"
  arity := .nullary
  body c _ :=
    match c.receiver with
    | .integer n => .done (.ofValue ((Integer.abs n).map .integer))
    | _ => notAMember c

/-- The members of doubles. -/
def ofDouble : List Member := [round, floor, ceil]

/-- The members of integers. -/
def ofInteger : List Member := [abs]

end Stencil.Member
