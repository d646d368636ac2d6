/-!
# Gates

A gate combines two truth values into one.  Gates are written in capital letters, and a
name is read without regard to the case of its ASCII letters.
-/

namespace Stencil

/-- A named combination of two truth values. -/
inductive Gate where
  | and
  | or
  | xor
  | nand
  | nor
  | xnor
  | not
deriving DecidableEq

namespace Gate

/-- Every gate, in the order in which names are tried. -/
def all : List Gate := [and, or, xor, nand, nor, xnor, not]

/-- The truth value of the gate at `a` and `b`; `not` does not look at `b`. -/
def apply : Gate → Bool → Bool → Bool
  | and, a, b => a && b
  | or, a, b => a || b
  | xor, a, b => a != b
  | nand, a, b => !(a && b)
  | nor, a, b => !(a || b)
  | xnor, a, b => a == b
  | not, a, _ => !a

/-- Whether the gate looks at its first input only. -/
def isUnary (g : Gate) : Bool := g = not

/-- The name of the gate. -/
def name : Gate → String
  | and => "AND"
  | or => "OR"
  | xor => "XOR"
  | nand => "NAND"
  | nor => "NOR"
  | xnor => "XNOR"
  | not => "NOT"

/-- The gate with the given name, where ASCII letters may be of either case. -/
def ofName? (name : String) : Option Gate :=
  all.find? fun g => g.name.toList = name.toList.map Char.toUpper

/-- What is said of a name that no gate has. -/
def unknown (name : String) : String := "unknown gate: " ++ name

theorem ofName?_name (g : Gate) :
  ofName? g.name = some g
  := by cases g <;> decide

/-- A gate is unary exactly when its second input never matters. -/
theorem isUnary_iff {g : Gate} :
  g.isUnary = true ↔ ∀ a b c, g.apply a b = g.apply a c
  := by cases g <;> decide

end Gate

end Stencil
