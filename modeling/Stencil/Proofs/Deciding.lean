import Stencil.Context.Basic

/-!
# Evaluation without short cuts

The evaluation of a binary operator stops after its left operand if that decides the result.  Here
a table says which truth value stops which operator, and everything else is evaluated as
`Node.evaluate`, `Body.run` and `answer` do: with `Operator.decidedBy?` for the table this is the
evaluation itself (`answerDeciding_eq`, `Node.evaluateDeciding_eq`), and with the empty table both
operands of every operator are evaluated, always (`Context.evaluateStrictly`).
-/

namespace Stencil

/-- Which truth value of the left operand stops the evaluation of an operator. -/
abbrev Deciding := Operator → Option Bool

/-- The table in which nothing stops the evaluation of an operator. -/
def Deciding.never : Deciding := fun _ => none

mutual

/-- Evaluates a node, where the table says what stops operators. -/
def Node.evaluateDeciding (table : Deciding) (answer : Answer) :
    Node → Environment → Result × Environment
  | .literal v, env => (proceed v, env)
  | .reference name, env =>
      match env.read name with
      | (some v, env) => (proceed v, env)
      | (none, env) => (fail (.undefinedVariable name), env)
  | .assignment name expression, env =>
      if env.store.globals.contains name then (fail (.globalRedefinition name), env)
      else
        proceeding (expression.evaluateDeciding table answer env) fun v env =>
          (proceed .empty, env.bind name (.constant v))
  | .dot receiver member args scope, env =>
      proceeding (receiver.evaluateDeciding table answer env) fun v env =>
        answer (.member v member args scope) env
  | .call name args scope, env => answer (.function name args scope) env
  | .binary op left right, env =>
      proceeding (left.evaluateDeciding table answer env) fun a env =>
        match table op with
        | none =>
            proceeding (right.evaluateDeciding table answer env) fun b env =>
              (.ofValue (op.evaluate a b), env)
        | some deciding =>
            match a.truth with
            | .error e => (.error e, env)
            | .ok decided =>
                if decided = deciding then (proceed (.boolean decided), env)
                else
                  proceeding (right.evaluateDeciding table answer env) fun b env =>
                    (.ofValue (op.evaluate a b), env)
  | .negation operand, env =>
      proceeding (operand.evaluateDeciding table answer env) fun v env =>
        (.ofValue (v.gate .not v), env)
  | .root children, env => Node.concatenateDeciding table answer children "" env
  | .block children scope, env =>
      match Node.concatenateDeciding table answer children "" env with
      | (result, inner) =>
          (result.map (Outcome.leaveBlock scope), { inner with locals := env.locals })
  | .returning expression scope, env =>
      proceeding (expression.evaluateDeciding table answer env) fun v env =>
        (.ok (.returning v scope), env)
  | .terminating expression scope, env =>
      proceeding (expression.evaluateDeciding table answer env) fun v env =>
        (.ok (.terminating v scope), env)

/-- Evaluates nodes from left to right and puts their display texts together after `text`, where
the table says what stops operators. -/
def Node.concatenateDeciding (table : Deciding) (answer : Answer) :
    List Node → (text : String) → Environment → Result × Environment
  | [], text, env => (proceed (.string text), env)
  | n :: rest, text, env =>
      proceeding (n.evaluateDeciding table answer env) fun v env =>
        Node.concatenateDeciding table answer rest (text ++ v.display) env

end

/-- Runs a body, where the table says what stops operators. -/
def Body.runDeciding (table : Deciding) (answer : Answer) (limits : Limits) (depth : Nat)
    {count : Nat} (args : Fin count → Node) : Body count → Activation → Result × Activation
  | .done result, a => (result, a)
  | .inspect i next, a => (next (args i)).runDeciding table answer limits depth args a
  | .evaluate context operand next, a =>
      match (operand.node args).evaluateDeciding table answer (a.environment context) with
      | (result, env) =>
          if result.aborts then (result, a.update context env)
          else (next result).runDeciding table answer limits depth args (a.update context env)
  | .call context callee next, a =>
      match answer (callee.map (Operand.node args)) (a.environment context) with
      | (result, env) =>
          if result.aborts then (result, a.update context env)
          else (next result).runDeciding table answer limits depth args (a.update context env)
  | .read context name next, a =>
      match (a.environment context).read name with
      | (v, env) => (next v).runDeciding table answer limits depth args (a.update context env)
  | .isGlobal name next, a =>
      (next (a.store.globals.contains name)).runDeciding table answer limits depth args a
  | .isLocal context name next, a =>
      (next ((a.environment context).locals.contains name)).runDeciding table answer limits
        depth args a
  | .arity name next, a =>
      (next ((a.store.functions.get? name).map Function.arity)).runDeciding table answer limits
        depth args a
  | .bind context name v next, a =>
      next.runDeciding table answer limits depth args
        (a.update context ((a.environment context).bind name v))
  | .define name v next, a =>
      next.runDeciding table answer limits depth args { a with store := a.store.define name v }
  | .register name accepted body next, a =>
      match a.store.register name ⟨accepted, body⟩ with
      | (outcome, store) =>
          (next outcome).runDeciding table answer limits depth args { a with store := store }
  | .fork context next, a =>
      (next a.locals.length).runDeciding table answer limits depth args (a.fork context)
  | .depth next, a => (next depth).runDeciding table answer limits depth args a
  | .limits next, a => (next limits).runDeciding table answer limits depth args a
termination_by structural body => body

theorem Body.runDeciding_evaluate {table : Deciding} {answer : Answer} {limits : Limits}
    {depth count : Nat} {args : Fin count → Node} (context : Nat) (operand : Operand count)
    (next : Result → Body count) (a : Activation) :
  (evaluate context operand next).runDeciding table answer limits depth args a
    = (resume next ((operand.node args).evaluateDeciding table answer
          (a.environment context)).1).runDeciding table answer limits depth args
        (a.update context
          ((operand.node args).evaluateDeciding table answer (a.environment context)).2)
  := by
  rw [runDeciding]
  rcases (operand.node args).evaluateDeciding table answer (a.environment context) with
    ⟨result, env⟩
  simp only [resume]
  split <;> rfl

/-- Answers a call, where the table says what stops operators. -/
def answerDeciding (table : Deciding) (limits : Limits) : (budget depth : Nat) → Answer
  | 0, _, c, env =>
      match env.store.bodyOf c with
      | .error e => (.error e, env)
      | .ok _ => (fail (.callDepthExceeded limits.maxCallDepth), env)
  | budget + 1, depth, c, env =>
      match env.store.bodyOf c with
      | .error e => (.error e, env)
      | .ok body =>
          match body.runDeciding table (answerDeciding table limits budget (depth + 1)) limits
            (depth + 1) c.args.get ⟨env.store, [env.locals]⟩ with
          | (result, a) => (result, a.environment 0)

/-- Evaluates a node as `Context.evaluate` does, except that both operands of every operator are
evaluated. -/
def Context.evaluateStrictly (c : Context) (n : Node) : Result × Context :=
  let answer :=
    answerDeciding .never c.limits (c.limits.maxCallDepth.toNat - c.depth) c.depth
  let (result, e) := n.evaluateDeciding .never answer c.environment
  (result, c.withEnvironment e)

/-! ### The table of the evaluation -/

mutual

/-- With the table of the evaluation, nodes are evaluated as ever. -/
theorem Node.evaluateDeciding_eq (answer : Answer) :
    ∀ (n : Node) (env : Environment),
      n.evaluateDeciding Operator.decidedBy? answer env = n.evaluate answer env
  | .literal v, env => by rw [evaluateDeciding, evaluate]
  | .reference name, env => by
      match h : env.read name with
      | (some v, e) => simp only [evaluateDeciding, evaluate, h]
      | (none, e) => simp only [evaluateDeciding, evaluate, h]
  | .assignment name expression, env => by
      rw [evaluateDeciding, evaluate, expression.evaluateDeciding_eq answer env]
  | .dot receiver member args scope, env => by
      rw [evaluateDeciding, evaluate, receiver.evaluateDeciding_eq answer env]
  | .call name args scope, env => by rw [evaluateDeciding, evaluate]
  | .binary op left right, env => by
      rw [evaluateDeciding, evaluate, left.evaluateDeciding_eq answer env]
      apply congrArg
      funext a env
      cases op.decidedBy? with
      | none => simp only [right.evaluateDeciding_eq answer]
      | some deciding =>
          cases a.truth with
          | error e => rfl
          | ok decided => simp only [right.evaluateDeciding_eq answer]
  | .negation operand, env => by
      rw [evaluateDeciding, evaluate, operand.evaluateDeciding_eq answer env]
  | .root children, env => by
      rw [evaluateDeciding, evaluate, Node.concatenateDeciding_eq answer children]
  | .block children scope, env => by
      rw [evaluateDeciding, evaluate, Node.concatenateDeciding_eq answer children]
  | .returning expression scope, env => by
      rw [evaluateDeciding, evaluate, expression.evaluateDeciding_eq answer env]
  | .terminating expression scope, env => by
      rw [evaluateDeciding, evaluate, expression.evaluateDeciding_eq answer env]

theorem Node.concatenateDeciding_eq (answer : Answer) :
    ∀ (nodes : List Node) (text : String) (env : Environment),
      Node.concatenateDeciding Operator.decidedBy? answer nodes text env
        = Node.concatenate answer nodes text env
  | [], text, env => by rw [concatenateDeciding, concatenate]
  | n :: rest, text, env => by
      rw [concatenateDeciding, concatenate, n.evaluateDeciding_eq answer env]
      simp only [Node.concatenateDeciding_eq answer rest]

end

/-- With the table of the evaluation, bodies run as ever. -/
theorem Body.runDeciding_eq (answer : Answer) (limits : Limits) (depth : Nat) {count : Nat}
    (args : Fin count → Node) (body : Body count) (a : Activation) :
  body.runDeciding Operator.decidedBy? answer limits depth args a
    = body.run answer limits depth args a
  := by
  induction body generalizing a with
  | done result => rw [runDeciding, run]
  | inspect i next ih => apply ih
  | evaluate context operand next ih =>
      rw [runDeciding, run, Node.evaluateDeciding_eq]
      simp only [ih]
  | call context callee next ih =>
      rw [runDeciding, run]
      simp only [ih]
  | read context name next ih => apply ih
  | isGlobal name next ih => apply ih
  | isLocal context name next ih => apply ih
  | arity name next ih => apply ih
  | bind context name v next ih => apply ih
  | define name v next ih => apply ih
  | register name accepted body next _ ih => apply ih
  | fork context next ih => apply ih
  | depth next ih => apply ih
  | limits next ih => apply ih

/-- With the table of the evaluation, calls are answered as ever. -/
theorem answerDeciding_eq (limits : Limits) (budget depth : Nat) :
  answerDeciding Operator.decidedBy? limits budget depth = answer limits budget depth
  := by
  induction budget generalizing depth with
  | zero =>
      funext callee env
      cases h : env.store.bodyOf callee with
      | error e => simp only [answerDeciding, answer, h]
      | ok body => simp only [answerDeciding, answer, h]
  | succ budget ih =>
      funext callee env
      cases h : env.store.bodyOf callee with
      | error e => simp only [answerDeciding, answer, h]
      | ok body =>
          simp only [answerDeciding, answer, h, ih, Body.runDeciding_eq]
          rfl

end Stencil
