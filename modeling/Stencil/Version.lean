/-!
# The version of the library
-/

namespace Stencil

/-- The number under which this state of the library is released. -/
def version : String := "0.1.0"

end Stencil
