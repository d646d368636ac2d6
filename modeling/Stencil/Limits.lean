import Stencil.Size

/-!
# Limits

What the embedding application allows one run: how deep calls may nest, and how long a
string a member that grows strings may build.
-/

namespace Stencil

/-- The limits of a run. -/
structure Limits where
  /-- How many calls of functions and members may be open at once. -/
  maxCallDepth : Size := 1024
  /-- How many bytes a string may have that a growing member builds. -/
  maxStringLen : Size := 16777216
deriving DecidableEq

namespace Limits

/-- The limits of a run that asks for nothing else: 1024 open calls and 16 MiB. -/
def standard : Limits := {}

/-- The greatest limits there are. -/
def unlimited : Limits := ⟨Size.largest, Size.largest⟩

end Limits

end Stencil
