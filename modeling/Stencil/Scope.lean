/-!
# Scopes

A scope is the number of a block.  A return that names a scope unwinds to the block with
that number.
-/

namespace Stencil

/-- The number of a block. -/
structure Scope where
  number : UInt32
deriving DecidableEq

namespace Scope

/-- The scope in words: `#3`. -/
def text (s : Scope) : String := "#" ++ toString s.number

/-- The scopes in ascending order. -/
def sorted (scopes : List Scope) : List Scope :=
  scopes.mergeSort fun a b => decide (a.number ≤ b.number)

end Scope

end Stencil
