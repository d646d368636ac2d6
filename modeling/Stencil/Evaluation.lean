import Stencil.Store
import Stencil.Value.Operation

/-!
# Evaluation

Evaluating a node in an environment gives a result and the environment afterwards; what
was bound, defined, registered or read stays so even when the result is an error.  The
evaluation of a node follows the tree, where `answer` says what calls give
(`Node.evaluate`).  A body runs step by step (`Body.run`).  Calls are answered by running
the body of what is called, one level deeper (`answer`): the number of further calls that
may be open decreases with each level, so that evaluation always ends.
-/

namespace Stencil

/-- What calls give in an environment. -/
abbrev Answer := Call Node → Environment → Result × Environment

/-- Goes on with the value of a result; an error and an outcome that blocks stay as they
are. -/
@[inline]
def proceeding (r : Result × Environment)
    (next : Value → Environment → Result × Environment) : Result × Environment :=
  match r with
  | (.ok (.proceed v), env) => next v env
  | r => r

/-- The result of a block with the given scope: a return that is aimed at it, or at no
scope, ends here, and any other outcome passes. -/
def Outcome.leaveBlock (scope : Option Scope) : Outcome → Outcome
  | .returning v s => if s = none ∨ s = scope then .proceed v else .returning v s
  | outcome => outcome

mutual

/-- Evaluates a node. -/
def Node.evaluate (answer : Answer) : Node → Environment → Result × Environment
  | .literal v, env => (proceed v, env)
  | .reference name, env =>
      match env.read name with
      | (some v, env) => (proceed v, env)
      | (none, env) => (fail (.undefinedVariable name), env)
  | .assignment name expression, env =>
      if env.store.globals.contains name then (fail (.globalRedefinition name), env)
      else
        proceeding (expression.evaluate answer env) fun v env =>
          (proceed .empty, env.bind name (.constant v))
  | .dot receiver member args scope, env =>
      proceeding (receiver.evaluate answer env) fun v env =>
        answer (.member v member args scope) env
  | .call name args scope, env => answer (.function name args scope) env
  | .binary op left right, env =>
      proceeding (left.evaluate answer env) fun a env =>
        match op.decidedBy? with
        | none =>
            proceeding (right.evaluate answer env) fun b env =>
              (.ofValue (op.evaluate a b), env)
        | some deciding =>
            match a.truth with
            | .error e => (.error e, env)
            | .ok decided =>
                if decided = deciding then (proceed (.boolean decided), env)
                else
                  proceeding (right.evaluate answer env) fun b env =>
                    (.ofValue (op.evaluate a b), env)
  | .negation operand, env =>
      proceeding (operand.evaluate answer env) fun v env => (.ofValue (v.gate .not v), env)
  | .root children, env => Node.concatenate answer children "" env
  | .block children scope, env =>
      match Node.concatenate answer children "" env with
      | (result, inner) =>
          (result.map (Outcome.leaveBlock scope), { inner with locals := env.locals })
  | .returning expression scope, env =>
      proceeding (expression.evaluate answer env) fun v env =>
        (.ok (.returning v scope), env)
  | .terminating expression scope, env =>
      proceeding (expression.evaluate answer env) fun v env =>
        (.ok (.terminating v scope), env)

/-- Evaluates nodes from left to right and puts their display texts together after
`text`. -/
def Node.concatenate (answer : Answer) :
    List Node → (text : String) → Environment → Result × Environment
  | [], text, env => (proceed (.string text), env)
  | n :: rest, text, env =>
      proceeding (n.evaluate answer env) fun v env =>
        Node.concatenate answer rest (text ++ v.display) env

end

/-- What evaluating nodes one after the other gives: all values, or the outcome that
blocked. -/
inductive Values where
  | all (values : List Value)
  | blocked (outcome : Outcome)
deriving DecidableEq

/-- Evaluates nodes from left to right and collects their values after those in `before`,
which are in reverse order. -/
def Node.evaluateEach (answer : Answer) :
    List Node → (before : List Value) → Environment → Attempt Values × Environment
  | [], before, env => (.ok (.all before.reverse), env)
  | n :: rest, before, env =>
      match n.evaluate answer env with
      | (.ok (.proceed v), env) => Node.evaluateEach answer rest (v :: before) env
      | (.ok outcome, env) => (.ok (.blocked outcome), env)
      | (.error e, env) => (.error e, env)

/-! ### Bodies -/

/-- The contexts that a running body knows: their common store, and the local variables of
each. -/
structure Activation where
  store : Store
  locals : List (Table Binding)

namespace Activation

/-- The environment of a context; a number that no context has stands for a context
without local variables. -/
def environment (a : Activation) (context : Nat) : Environment :=
  ⟨a.store, a.locals.getD context {}⟩

/-- The contexts after one of them has changed. -/
def update (a : Activation) (context : Nat) (env : Environment) : Activation :=
  ⟨env.store, a.locals.set context env.locals⟩

/-- The contexts with a fork of one of them at the end. -/
def fork (a : Activation) (context : Nat) : Activation :=
  { a with locals := a.locals ++ [(a.environment context).locals] }

end Activation

/-- Runs a body with the given arguments while `depth` calls are open. -/
def Body.run (answer : Answer) (limits : Limits) (depth : Nat) {count : Nat}
    (args : Fin count → Node) : Body count → Activation → Result × Activation
  | .done result, a => (result, a)
  | .inspect i next, a => (next (args i)).run answer limits depth args a
  | .evaluate context operand next, a =>
      match (operand.node args).evaluate answer (a.environment context) with
      | (result, env) =>
          if result.aborts then (result, a.update context env)
          else (next result).run answer limits depth args (a.update context env)
  | .call context callee next, a =>
      match answer (callee.map (Operand.node args)) (a.environment context) with
      | (result, env) =>
          if result.aborts then (result, a.update context env)
          else (next result).run answer limits depth args (a.update context env)
  | .read context name next, a =>
      match (a.environment context).read name with
      | (v, env) => (next v).run answer limits depth args (a.update context env)
  | .isGlobal name next, a =>
      (next (a.store.globals.contains name)).run answer limits depth args a
  | .isLocal context name next, a =>
      (next ((a.environment context).locals.contains name)).run answer limits depth args a
  | .arity name next, a =>
      (next ((a.store.functions.get? name).map Function.arity)).run answer limits depth
        args a
  | .bind context name v next, a =>
      next.run answer limits depth args
        (a.update context ((a.environment context).bind name v))
  | .define name v next, a =>
      next.run answer limits depth args { a with store := a.store.define name v }
  | .register name accepted body next, a =>
      match a.store.register name ⟨accepted, body⟩ with
      | (outcome, store) => (next outcome).run answer limits depth args { a with store := store }
  | .fork context next, a =>
      (next a.locals.length).run answer limits depth args (a.fork context)
  | .depth next, a => (next depth).run answer limits depth args a
  | .limits next, a => (next limits).run answer limits depth args a
termination_by structural body => body

namespace Body

variable {answer : Answer} {limits : Limits} {depth count : Nat} {args : Fin count → Node}

theorem run_evaluate (context : Nat) (operand : Operand count) (next : Result → Body count)
    (a : Activation) :
  (evaluate context operand next).run answer limits depth args a
    = (resume next ((operand.node args).evaluate answer (a.environment context)).1).run answer
        limits depth args
        (a.update context ((operand.node args).evaluate answer (a.environment context)).2)
  := by
  rw [run]
  rcases (operand.node args).evaluate answer (a.environment context) with ⟨result, env⟩
  simp only [resume]
  split <;> rfl

theorem run_call (context : Nat) (callee : Call (Operand count)) (next : Result → Body count)
    (a : Activation) :
  (call context callee next).run answer limits depth args a
    = (resume next (answer (callee.map (Operand.node args)) (a.environment context)).1).run
        answer limits depth args
        (a.update context (answer (callee.map (Operand.node args)) (a.environment context)).2)
  := by
  rw [run]
  rcases answer (callee.map (Operand.node args)) (a.environment context) with ⟨result, env⟩
  simp only [resume]
  split <;> rfl

end Body

/-! ### Calls -/

/-- Answers a call while `depth` calls are open and `budget` further calls may be opened.
What is called must exist and accept the number of arguments, and there must be room for
one more open call; then its body runs, and its result is the answer. -/
def answer (limits : Limits) : (budget depth : Nat) → Answer
  | 0, _, c, env =>
      match env.store.bodyOf c with
      | .error e => (.error e, env)
      | .ok _ => (fail (.callDepthExceeded limits.maxCallDepth), env)
  | budget + 1, depth, c, env =>
      match env.store.bodyOf c with
      | .error e => (.error e, env)
      | .ok body =>
          match body.run (answer limits budget (depth + 1)) limits (depth + 1)
            (fun i => c.args[i]) ⟨env.store, [env.locals]⟩ with
          | (result, a) => (result, a.environment 0)

end Stencil
