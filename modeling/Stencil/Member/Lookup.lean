import Stencil.Member.Number
import Stencil.Member.Text

/-!
# Finding members

The members of each kind of value, and the one with a given name.
-/

namespace Stencil.Member

/-- The members of the values of a kind. -/
def ofKind : Kind → List Member
  | .string => ofString
  | .boolean => []
  | .double => ofDouble
  | .integer => ofInteger

/-- The member of a kind with the given name. -/
def find? (kind : Kind) (name : String) : Option Member :=
  (ofKind kind).find? fun m => m.name == name

theorem name_of_find? {kind : Kind} {name : String} {m : Member}
    (h : find? kind name = some m) :
  m.name = name
  := by simpa using List.find?_some h

end Stencil.Member
