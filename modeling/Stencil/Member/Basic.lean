import Stencil.Function.Body

/-!
# Member functions

A member function is called on a value, the receiver.  Which members there are depends on
the kind of the receiver only.
-/

namespace Stencil

/-- What the body of a member is told about its call. -/
structure Invocation where
  /-- The name by which the member was called. -/
  name : String
  receiver : Value
  scope : Option Scope

namespace Invocation

variable {count : Nat}

/-- The text of the receiver, which is empty if the receiver is not a string. -/
def text (c : Invocation) : String := c.receiver.text?.getD ""

/-- Evaluates the argument at a position and goes on with its value; it is an error if
there are too few arguments. -/
def argument (c : Invocation) (i : Nat) (next : Value → Body count) : Body count :=
  if h : i < count then .value 0 (.arg ⟨i, h⟩) next
  else .done (fail (.arityMismatch c.name (.atLeast (UInt64.ofNat (i + 1))) count))

end Invocation

/-- A member function. -/
structure Member where
  name : String
  arity : Arity
  body : Invocation → (count : Nat) → Body count

end Stencil
