import Stencil.Operator.Basic
import Stencil.Outcome

/-!
# Nodes

A template is a tree of nodes.  The subtrees of a node are listed by `children` in the
order in which they are evaluated.
-/

namespace Stencil

/-- A node of a template. -/
inductive Node where
  /-- A value. -/
  | literal (value : Value)
  /-- The value of a variable. -/
  | reference (name : String)
  /-- Binds a local variable. -/
  | assignment (name : String) (expression : Node)
  /-- Calls a member function of the receiver's value. -/
  | dot (receiver : Node) (member : String) (args : List Node) (scope : Option Scope)
  /-- Calls a function. -/
  | call (name : String) (args : List Node) (scope : Option Scope)
  /-- An operator between two operands. -/
  | binary (op : Operator) (left right : Node)
  /-- The negation of a boolean. -/
  | negation (operand : Node)
  /-- The rendered children, one after the other. -/
  | root (children : List Node)
  /-- The rendered children, with local variables of their own. -/
  | block (children : List Node) (scope : Option Scope)
  /-- Returns from a block. -/
  | returning (expression : Node) (scope : Option Scope)
  /-- Terminates the run. -/
  | terminating (expression : Node) (scope : Option Scope)

namespace Node

/-- The subtrees of a node, in the order of evaluation. -/
def children : Node → List Node
  | literal _ => []
  | reference _ => []
  | assignment _ expression => [expression]
  | dot receiver _ args _ => receiver :: args
  | call _ args _ => args
  | binary _ left right => [left, right]
  | negation operand => [operand]
  | root children => children
  | block children _ => children
  | returning expression _ => [expression]
  | terminating expression _ => [expression]

end Node

end Stencil
