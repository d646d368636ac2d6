import Stencil.Operator.Gate

/-!
# Binary operators

The operators of expressions: arithmetic, comparison and the gates.  Each has a symbol,
as it is written, and the name of the operation on values that it stands for, as error
messages show it.
-/

namespace Stencil

/-- A binary operator. -/
inductive Operator where
  | add
  | sub
  | mul
  | div
  | floorDiv
  | mod
  | eq
  | ne
  | gt
  | lt
  | ge
  | le
  | gate (g : Gate)
deriving DecidableEq

namespace Operator

/-- Every operator. -/
def all : List Operator :=
  [add, sub, mul, div, floorDiv, mod, eq, ne, gt, lt, ge, le] ++ Gate.all.map gate

/-- The operator as it is written. -/
def symbol : Operator → String
  | add => "+"
  | sub => "-"
  | mul => "*"
  | div => "/"
  | floorDiv => "//"
  | mod => "%"
  | eq => "=="
  | ne => "!="
  | gt => ">"
  | lt => "<"
  | ge => ">="
  | le => "<="
  | gate g => g.name

/-- The name of the operation on values. -/
def operation : Operator → String
  | add => "add"
  | sub => "subtract"
  | mul => "multiply"
  | div => "divide"
  | floorDiv => "int_divide"
  | mod => "modulo"
  | eq => "equals"
  | ne => "not_equals"
  | gt => "greater_than"
  | lt => "less_than"
  | ge => "greater_than_or_equal"
  | le => "less_than_or_equal"
  | gate _ => "gate"

/-- Whether the right operand can be skipped once the left one is known. -/
def shortCircuits (op : Operator) : Bool := op = gate .and ∨ op = gate .or

/-- The truth value of the left operand at which the evaluation stops, for the operators that
have one: `AND` stops on false, and `OR` on true. -/
def decidedBy? (op : Operator) : Option Bool :=
  if op.shortCircuits then some (op = gate .or) else none

/-- The operator with the given symbol. -/
def ofSymbol? (symbol : String) : Option Operator :=
  all.find? fun op => op.symbol = symbol

theorem ofSymbol?_symbol (op : Operator) :
  ofSymbol? op.symbol = some op
  := by
  cases op with
  | gate g => cases g <;> decide
  | _ => decide

theorem decidedBy?_eq_some_iff {op : Operator} {b : Bool} :
  op.decidedBy? = some b ↔ (op = gate .and ∧ b = false) ∨ (op = gate .or ∧ b = true)
  := by
  cases op with
  | gate g => cases g <;> cases b <;> decide
  | _ => simp [decidedBy?, shortCircuits]

end Operator

end Stencil
