import Stencil.Function.Body
import Stencil.Member.Lookup
import Stencil.Table

/-!
# Stores and environments

A store holds what is common to all contexts of a run: the global variables, the
functions, and how often each computed variable has been read.  An environment is a store
with the local variables of one context.

A binding of a computed variable has a counter in the store.  Every time a variable is bound
to a name it gets a counter of its own, and the forks of a context, which take over its
bindings, share their counters with it.
-/

namespace Stencil

/-- What a name is bound to: a value, or a computed variable with the number of its
counter. -/
inductive Binding where
  | constant (value : Value)
  | computed (values : Nat → Value) (counter : Nat)

/-- What is common to all contexts of a run. -/
structure Store where
  globals : Table Binding := {}
  functions : Table Function := {}
  /-- How often each computed variable has been read. -/
  reads : Array Nat := #[]

namespace Store

/-- The store in which nothing is bound. -/
def empty : Store := {}

/-- The binding for a variable; a computed variable gets a counter of its own. -/
def allocate (s : Store) : Variable → Binding × Store
  | .constant v => (.constant v, s)
  | .computed values => (.computed values s.reads.size, { s with reads := s.reads.push 0 })

/-- The value of a binding, which counts as a read. -/
def read (s : Store) : Binding → Value × Store
  | .constant v => (v, s)
  | .computed values counter =>
      (values (s.reads.getD counter 0), { s with reads := s.reads.modify counter (· + 1) })

/-- Binds a name globally. -/
def define (s : Store) (name : String) (v : Variable) : Store :=
  let (binding, s) := s.allocate v
  { s with globals := s.globals.insert name binding }

/-- Registers a function under a name that no function has. -/
def register (s : Store) (name : String) (f : Function) : Attempt Unit × Store :=
  if s.functions.contains name then (fail (.functionAlreadyExists name), s)
  else (.ok (), { s with functions := s.functions.insert name f })

/-- The arity and the body of what a call names. -/
def callee (s : Store) : Call Node → Attempt (Arity × ((count : Nat) → Body count))
  | .function name _ scope =>
      match s.functions.get? name with
      | some f => .ok (f.arity, fun count => f.body count scope)
      | none => fail (.undefinedFunction name)
  | .member receiver name _ scope =>
      match Member.find? receiver.kind name with
      | some m => .ok (m.arity, m.body ⟨name, receiver, scope⟩)
      | none => fail (.undefinedMember name receiver.kindName)

/-- The body that a call runs: what is called must exist, and it must accept the number of
arguments. -/
def bodyOf (s : Store) (c : Call Node) : Attempt (Body c.args.length) :=
  match s.callee c with
  | .error e => .error e
  | .ok (arity, body) =>
      if arity.accepts c.args.length then .ok (body c.args.length)
      else fail (.arityMismatch c.name arity c.args.length)

end Store

/-- A store with local variables. -/
structure Environment where
  store : Store := {}
  locals : Table Binding := {}

namespace Environment

/-- What a name stands for; a global variable comes before a local one. -/
def resolve? (e : Environment) (name : String) : Option Binding :=
  match e.store.globals.get? name with
  | some binding => some binding
  | none => e.locals.get? name

/-- The value of the variable that a name stands for, which counts as a read. -/
def read (e : Environment) (name : String) : Option Value × Environment :=
  match e.resolve? name with
  | some binding =>
      let (v, store) := e.store.read binding
      (some v, { e with store := store })
  | none => (none, e)

/-- Binds a name locally. -/
def bind (e : Environment) (name : String) (v : Variable) : Environment :=
  let (binding, store) := e.store.allocate v
  { store := store, locals := e.locals.insert name binding }

end Environment

end Stencil
