import Stencil.Context.Basic

/-!
# Applications

An application lists the global variables and the functions that it offers, and gets a
root context with all of them.  Of two globals with one name the later one counts, and two
functions with one name are an error.
-/

namespace Stencil

/-- What an application offers to templates. -/
structure Application where
  globals : List (String × Variable) := []
  functions : List (String × Function) := []
  limits : Limits := {}

namespace Application

/-- The store with global variables defined one after the other. -/
def defineAll (s : Store) (globals : List (String × Variable)) : Store :=
  globals.foldl (fun s (name, v) => s.define name v) s

/-- The store with functions registered one after the other, up to the first failure. -/
def registerAll (s : Store) : List (String × Function) → Attempt Store
  | [] => .ok s
  | (name, f) :: rest =>
      match s.register name f with
      | (.ok (), s) => registerAll s rest
      | (.error e, _) => .error e

/-- The root context with everything that is listed. -/
def context (a : Application) : Attempt Context := do
  let store ← registerAll (defineAll .empty a.globals) a.functions
  return { limits := a.limits, store := store }

end Application

end Stencil
