import Stencil.Scope
import Stencil.Value.Basic

/-!
# Outcomes

Evaluating a node gives a value and says how to go on: with what comes next, by returning
from an enclosing block, or by terminating the run.  Returning and terminating block: what
encloses the node stops as well and hands the outcome on, until a block takes a return
that is meant for it.
-/

namespace Stencil

/-- A value, and how to go on. -/
inductive Outcome where
  /-- Goes on with what comes next. -/
  | proceed (value : Value)
  /-- Unwinds to the block with the given scope, or without a scope to the nearest one. -/
  | returning (value : Value) (scope : Option Scope)
  /-- Unwinds all the way; the value is the reason. -/
  | terminating (value : Value) (scope : Option Scope)
deriving DecidableEq

namespace Outcome

/-- The value of an outcome. -/
def value : Outcome → Value
  | proceed v => v
  | returning v _ => v
  | terminating v _ => v

/-- The scope that a blocking outcome is aimed at. -/
def scope : Outcome → Option Scope
  | proceed _ => none
  | returning _ s => s
  | terminating _ s => s

/-- Whether what encloses the node stops as well. -/
def blocks : Outcome → Bool
  | proceed _ => false
  | _ => true

end Outcome

/-- The result of evaluating a node. -/
abbrev Result := Attempt Outcome

/-- The result that goes on with a value. -/
def proceed (v : Value) : Result := .ok (.proceed v)

/-- The result of a computation that may fail and never blocks. -/
def Result.ofValue (v : Attempt Value) : Result := v.map .proceed

end Stencil
