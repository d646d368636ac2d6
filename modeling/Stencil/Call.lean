import Stencil.Outcome

/-!
# Calls

A call names a function, or a member function of a value, and lists its arguments.  The
arguments are not evaluated yet: what is called decides which of them are evaluated, and
in what order.
-/

namespace Stencil

/-- A call with arguments of type `α`. -/
inductive Call (α : Type) where
  | function (name : String) (args : List α) (scope : Option Scope)
  | member (receiver : Value) (name : String) (args : List α) (scope : Option Scope)

namespace Call

variable {α β : Type}

/-- The name of what is called. -/
def name : Call α → String
  | function name _ _ => name
  | member _ name _ _ => name

/-- The arguments. -/
def args : Call α → List α
  | function _ args _ => args
  | member _ _ args _ => args

/-- The same call with other arguments. -/
def map (f : α → β) : Call α → Call β
  | function name args scope => function name (args.map f) scope
  | member receiver name args scope => member receiver name (args.map f) scope

@[simp]
theorem args_map (f : α → β) (c : Call α) :
  (c.map f).args = c.args.map f
  := by cases c <;> rfl

end Call

end Stencil
