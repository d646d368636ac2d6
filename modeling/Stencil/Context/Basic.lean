import Stencil.Evaluation

/-!
# Contexts

A context is what an application evaluates templates in: a store, local variables, the
limits of the run and the number of calls that are open.  Contexts that are forked from
the same root share their store; everything else is a context's own, its `Frame`.
-/

namespace Stencil

/-- What a context has of its own. -/
structure Frame where
  locals : Table Binding := {}
  limits : Limits
  /-- How many calls are open. -/
  depth : Nat := 0
  depth_le : depth ≤ limits.maxCallDepth.toNat := by omega

/-- A store with a frame. -/
structure Context extends Frame where
  store : Store

namespace Context

/-- A root context, in which nothing is bound. -/
def root (limits : Limits) : Context where
  limits := limits
  store := .empty

/-- The environment in which nodes are evaluated. -/
def environment (c : Context) : Environment := ⟨c.store, c.locals⟩

/-- The context with another environment. -/
def withEnvironment (c : Context) (e : Environment) : Context :=
  { c with store := e.store, locals := e.locals }

/-- The answer to calls from the context. -/
def answer (c : Context) : Answer :=
  Stencil.answer c.limits (c.limits.maxCallDepth.toNat - c.depth) c.depth

/-! ### Names -/

/-- Binds a name locally; the forks of the context do not see it. -/
def bind (c : Context) (name : String) (v : Variable) : Context :=
  c.withEnvironment (c.environment.bind name v)

/-- Binds a name globally, for all contexts with the same store. -/
def define (c : Context) (name : String) (v : Variable) : Context :=
  { c with store := c.store.define name v }

/-- Registers a function, for all contexts with the same store. -/
def register (c : Context) (name : String) (f : Function) : Attempt Unit × Context :=
  let (outcome, store) := c.store.register name f
  (outcome, { c with store := store })

/-- The value of the variable that a name stands for. -/
def read (c : Context) (name : String) : Option Value × Context :=
  let (v, e) := c.environment.read name
  (v, c.withEnvironment e)

/-- Whether a name is bound globally. -/
def hasGlobal (c : Context) (name : String) : Bool := c.store.globals.contains name

/-- Whether a name is bound locally. -/
def hasLocal (c : Context) (name : String) : Bool := c.locals.contains name

/-- The arity of a function. -/
def arity? (c : Context) (name : String) : Option Arity :=
  (c.store.functions.get? name).map Function.arity

/-! ### Evaluation -/

/-- Evaluates a node. -/
def evaluate (c : Context) (n : Node) : Result × Context :=
  let (result, e) := n.evaluate c.answer c.environment
  (result, c.withEnvironment e)

/-- Evaluates nodes from left to right. -/
def evaluateEach (c : Context) (nodes : List Node) : Attempt Values × Context :=
  let (values, e) := Node.evaluateEach c.answer nodes [] c.environment
  (values, c.withEnvironment e)

/-- Calls a function or a member. -/
def call (c : Context) (callee : Call Node) : Result × Context :=
  let (result, e) := c.answer callee c.environment
  (result, c.withEnvironment e)

/-- Runs a body without a call, at the present depth. -/
def run (c : Context) (args : List Node) (body : Body args.length) : Result × Context :=
  let r := body.run c.answer c.limits c.depth (fun i => args[i]) ⟨c.store, [c.locals]⟩
  (r.1, c.withEnvironment (r.2.environment 0))

end Context

/-- What rendering a template gives. -/
inductive Output where
  /-- The text of the whole template. -/
  | text (content : String)
  /-- The reason why the run was terminated; there is no text then. -/
  | stopped (reason : Value)
deriving DecidableEq

/-- The output that an outcome amounts to; a return that no block has taken gives its
value. -/
def Outcome.output : Outcome → Output
  | proceed v => .text v.display
  | returning v _ => .text v.display
  | terminating v _ => .stopped v

/-- Evaluates a node to output. -/
def Context.render (c : Context) (n : Node) : Attempt Output × Context :=
  let (result, c) := c.evaluate n
  (result.map Outcome.output, c)

end Stencil
