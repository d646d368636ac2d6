import Stencil.Context.Application
import Stencil.Context.Description

/-!
# Sessions

A session is a growing family of contexts.  It begins with one root context; further
contexts are new roots, each with a store of its own, or forks, which share the store of
the context they are forked from.  A step acts on one context of the family and gives a
reply.
-/

namespace Stencil

/-- A family of contexts.  Each consists of the number of its store and of its frame. -/
structure Session where
  stores : List Store
  contexts : List (Nat × Frame)

namespace Session

/-- What can be done with a context. -/
inductive Step where
  /-- Adds a root context to the family. -/
  | newRoot (limits : Limits)
  /-- Adds a fork of the context to the family. -/
  | fork
  | bind (name : String) (v : Variable)
  | define (name : String) (v : Variable)
  | register (name : String) (f : Function)
  | read (name : String)
  | arity (name : String)
  /-- Asks whether a name is bound globally, and whether it is bound locally. -/
  | bound (name : String)
  /-- Asks whether the context has the same store as another. -/
  | shares (other : Nat)
  | evaluate (n : Node)
  | render (n : Node)
  | call (callee : Call Node)
  | evaluateEach (nodes : List Node)
  | limits
  | describe

/-- What a step gives. -/
inductive Reply where
  | done
  /-- The position of a new context in the family. -/
  | context (index : Nat)
  | registered (outcome : Attempt Unit)
  | value (v : Option Value)
  | arity (a : Option Arity)
  | bound (globally locally : Bool)
  | shares (b : Bool)
  | result (r : Result)
  | output (r : Attempt Output)
  | values (r : Attempt Values)
  | limits (l : Limits)
  | description (text : String)

/-- Whether the run that was to give the reply has been aborted. -/
def Reply.aborts : Reply → Bool
  | .result r => r.aborts
  | .output r => r.aborts
  | .values r => r.aborts
  | _ => false

/-- The session with a single context. -/
def ofContext (c : Context) : Session := ⟨[c.store], [(0, c.toFrame)]⟩

/-- The context at a position of the family. -/
def context? (s : Session) (i : Nat) : Option Context := do
  let (number, frame) ← s.contexts[i]?
  let store ← s.stores[number]?
  return { frame with store := store }

/-- The session after the context at a position has changed. -/
def update (s : Session) (i : Nat) (c : Context) : Session :=
  match s.contexts[i]? with
  | some (number, _) =>
      ⟨s.stores.set number c.store, s.contexts.set i (number, c.toFrame)⟩
  | none => s

/-- Whether two contexts of the family have the same store. -/
def shares (s : Session) (i j : Nat) : Bool :=
  match s.contexts[i]?, s.contexts[j]? with
  | some (m, _), some (n, _) => m == n
  | _, _ => false

/-- The session with a new root context at the end of the family. -/
def addRoot (s : Session) (limits : Limits) : Session :=
  ⟨s.stores ++ [.empty], s.contexts ++ [(s.stores.length, (Context.root limits).toFrame)]⟩

/-- The session with a fork of a context at the end of the family. -/
def addFork (s : Session) (i : Nat) : Session :=
  match s.contexts[i]? with
  | some context => { s with contexts := s.contexts ++ [context] }
  | none => s

/-- What a step on a context at a position of the family gives, and the session afterwards. -/
def act (s : Session) (i : Nat) (c : Context) : Step → Reply × Session
  | .newRoot limits => (.context s.contexts.length, s.addRoot limits)
  | .fork => (.context s.contexts.length, s.addFork i)
  | .bind name v => (.done, s.update i (c.bind name v))
  | .define name v => (.done, s.update i (c.define name v))
  | .register name f =>
      let (outcome, c) := c.register name f
      (.registered outcome, s.update i c)
  | .read name =>
      let (v, c) := c.read name
      (.value v, s.update i c)
  | .arity name => (.arity (c.arity? name), s)
  | .bound name => (.bound (c.hasGlobal name) (c.hasLocal name), s)
  | .shares other => (.shares (s.shares i other), s)
  | .evaluate n =>
      let (result, c) := c.evaluate n
      (.result result, s.update i c)
  | .render n =>
      let (output, c) := c.render n
      (.output output, s.update i c)
  | .call callee =>
      let (result, c) := c.call callee
      (.result result, s.update i c)
  | .evaluateEach nodes =>
      let (values, c) := c.evaluateEach nodes
      (.values values, s.update i c)
  | .limits => (.limits c.limits, s)
  | .describe => (.description c.description, s)

/-- The reply to a step on a context of the family, and the session afterwards; there is
none if the family has no context at the position, or if the run is aborted. -/
def step? (s : Session) (i : Nat) (action : Step) : Option (Reply × Session) :=
  ((s.context? i).map fun c => s.act i c action).filter fun (reply, _) => !reply.aborts

end Session

end Stencil
