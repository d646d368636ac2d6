import Stencil.Proofs.Course.Event

/-!
# The course of a run

A run is followed here as it happens.  Every context keeps a count of the calls that are
open in it: a call that finds room counts one up before its body runs and one down
afterwards, and a fork starts with the count of the context it is forked from.  The course
of a run consists of its result, the state it leaves behind, and its moments: the events in
order, each with the count of the context that is active when it happens.

`Node.course` and `Body.course` follow nodes and bodies, and `answerCourse` follows calls.
That they give the results and the environments of `Node.evaluate`, `Body.run` and `answer`
is `evaluate_eq_course` of `Stencil.Proofs.Course.Agreement`.
-/

namespace Stencil

/-- An event, and the count of open calls in the context that is active. -/
structure Moment where
  event : Event
  depth : Size

/-- An environment with the count of open calls that its context keeps. -/
structure Counted extends Environment where
  depth : Size

/-- What happens from a state on: the result, the state afterwards and the moments. -/
structure Course (σ : Type) where
  result : Result
  state : σ
  trace : List Moment

namespace Course

variable {σ : Type}

/-- The events in order. -/
def events (c : Course σ) : List Event := c.trace.map Moment.event

/-- The course in which nothing happens. -/
def still (result : Result) (state : σ) : Course σ := ⟨result, state, []⟩

@[simp]
theorem events_still (result : Result) (state : σ) :
  (still result state).events = []
  := rfl

/-- A course, with moments before it. -/
def after (before : List Moment) (c : Course σ) : Course σ :=
  { c with trace := before ++ c.trace }

@[simp]
theorem events_after (before : List Moment) (c : Course σ) :
  (c.after before).events = before.map Moment.event ++ c.events
  := List.map_append

/-- Goes on with the value of a result; an error and an outcome that blocks stay as they
are. -/
def proceeding (c : Course Counted) (next : Value → Counted → Course Counted) :
    Course Counted :=
  match c.result with
  | .ok (.proceed v) => (next v c.state).after c.trace
  | _ => c

theorem proceeding_of_proceed {c : Course Counted} {v : Value}
    (h : c.result = proceed v) (next : Value → Counted → Course Counted) :
  c.proceeding next = (next v c.state).after c.trace
  := by simp only [proceeding, h, proceed]

theorem proceeding_of_blocks {c : Course Counted} (h : Result.blocks c.result = true)
    (next : Value → Counted → Course Counted) :
  c.proceeding next = c
  := by
  rw [proceeding]
  split
  · rename_i hr
    rw [hr] at h
    contradiction
  · rfl

/-- A course that is all of an activity which starts at the given count. -/
def during (a : Activity) (depth : Size) (c : Course Counted) : Course Counted where
  result := a.conclude c.result
  state := c.state
  trace := ⟨.starts a, depth⟩
    :: (c.trace ++ [⟨.ends a (a.conclude c.result), c.state.depth⟩])

@[simp]
theorem events_during (a : Activity) (depth : Size) (c : Course Counted) :
  (during a depth c).events = .starts a :: (c.events ++ [.ends a (a.conclude c.result)])
  := by simp [events, during]

/-- A course in a fork of a context, which keeps the store and leaves the rest of the
context alone. -/
def inForkOf (s : Counted) (c : Course Counted) : Course Counted :=
  { c with state := { s with store := c.state.store } }

end Course

namespace Counted

/-- Reads the variable that a name stands for; it is an error if there is none. -/
def reading (s : Counted) (name : String) : Course Counted :=
  match s.read name with
  | (v, env) =>
      (Course.still (v.elim (fail (.undefinedVariable name)) proceed) ⟨env, s.depth⟩).after
        [⟨.reads name, s.depth⟩]

/-- Binds a name locally and contributes nothing to the output. -/
def binding (s : Counted) (name : String) (v : Variable) : Course Counted :=
  (Course.still (proceed .empty) ⟨s.bind name v, s.depth⟩).after [⟨.binds name, s.depth⟩]

end Counted

/-- What happens when calls are answered. -/
abbrev AnswerCourse := Call Node → Counted → Course Counted

mutual

/-- Follows the evaluation of a node. -/
def Node.course (answer : AnswerCourse) (n : Node) (s : Counted) : Course Counted :=
  .during (.node n) s.depth <| match n with
  | .literal v => .still (proceed v) s
  | .reference name => s.reading name
  | .assignment name expression =>
      if s.store.globals.contains name then .still (fail (.globalRedefinition name)) s
      else (expression.course answer s).proceeding fun v s => s.binding name (.constant v)
  | .dot receiver member args scope =>
      (receiver.course answer s).proceeding fun v s => answer (.member v member args scope) s
  | .call name args scope => answer (.function name args scope) s
  | .binary op left right =>
      (left.course answer s).proceeding fun a s =>
        match op.decidedBy? with
        | none =>
            (right.course answer s).proceeding fun b s =>
              .still (.ofValue (op.evaluate a b)) s
        | some deciding =>
            match a.truth with
            | .error e => .still (.error e) s
            | .ok decided =>
                if decided = deciding then .still (proceed (.boolean decided)) s
                else
                  (right.course answer s).proceeding fun b s =>
                    .still (.ofValue (op.evaluate a b)) s
  | .negation operand =>
      (operand.course answer s).proceeding fun v s => .still (.ofValue (v.gate .not v)) s
  | .root children => Node.courseOfAll answer children "" s
  | .block children _ => (Node.courseOfAll answer children "" s).inForkOf s
  | .returning expression scope =>
      (expression.course answer s).proceeding fun v s => .still (.ok (.returning v scope)) s
  | .terminating expression scope =>
      (expression.course answer s).proceeding fun v s =>
        .still (.ok (.terminating v scope)) s
termination_by structural n

/-- Follows the evaluation of nodes whose display texts are put together after `text`. -/
def Node.courseOfAll (answer : AnswerCourse) (nodes : List Node) (text : String)
    (s : Counted) : Course Counted :=
  match nodes with
  | [] => .still (proceed (.string text)) s
  | n :: rest =>
      (n.course answer s).proceeding fun v s =>
        Node.courseOfAll answer rest (text ++ v.display) s
termination_by structural nodes

end

/-! ### Bodies and calls -/

/-- The contexts that a running body knows, each with its count of open calls. -/
structure CountedActivation extends Activation where
  depths : Nat → Size

namespace CountedActivation

/-- The environment of a context with its count. -/
def counted (a : CountedActivation) (context : Nat) : Counted :=
  ⟨a.environment context, a.depths context⟩

/-- The contexts after one of them has changed. -/
def update (a : CountedActivation) (context : Nat) (s : Counted) : CountedActivation where
  toActivation := a.toActivation.update context s.toEnvironment
  depths i := if i = context then s.depth else a.depths i

/-- The contexts with a fork of one of them at the end. -/
def fork (a : CountedActivation) (context : Nat) : CountedActivation where
  toActivation := a.toActivation.fork context
  depths i := if i = a.locals.length then a.depths context else a.depths i

/-- The contexts after the store has changed. -/
def withStore (a : CountedActivation) (store : Store) : CountedActivation :=
  { a with store := store }

end CountedActivation

/-- Follows a body with the given arguments. -/
def Body.course (answer : AnswerCourse) (limits : Limits) {count : Nat}
    (args : Fin count → Node) : Body count → CountedActivation → Course CountedActivation
  | .done result, a => .still result a
  | .inspect i next, a => (next (args i)).course answer limits args a
  | .evaluate context operand next, a =>
      let c := (operand.node args).course answer (a.counted context)
      let contexts := a.update context c.state
      (if c.result.aborts then .still c.result contexts
        else (next c.result).course answer limits args contexts).after c.trace
  | .call context callee next, a =>
      let c := answer (callee.map (Operand.node args)) (a.counted context)
      let contexts := a.update context c.state
      (if c.result.aborts then .still c.result contexts
        else (next c.result).course answer limits args contexts).after c.trace
  | .read context name next, a =>
      match (a.environment context).read name with
      | (v, env) =>
          ((next v).course answer limits args
            (a.update context ⟨env, a.depths context⟩)).after
              [⟨.reads name, a.depths context⟩]
  | .isGlobal name next, a =>
      (next (a.store.globals.contains name)).course answer limits args a
  | .isLocal context name next, a =>
      (next ((a.environment context).locals.contains name)).course answer limits args a
  | .arity name next, a =>
      (next ((a.store.functions.get? name).map Function.arity)).course answer limits args a
  | .bind context name v next, a =>
      (next.course answer limits args
        (a.update context ⟨(a.environment context).bind name v, a.depths context⟩)).after
          [⟨.binds name, a.depths context⟩]
  | .define name v next, a =>
      (next.course answer limits args (a.withStore (a.store.define name v))).after
        [⟨.defines name, a.depths 0⟩]
  | .register name accepted body next, a =>
      match a.store.register name ⟨accepted, body⟩ with
      | (outcome, store) =>
          ((next outcome).course answer limits args (a.withStore store)).after
            [⟨.registers name, a.depths 0⟩]
  | .fork context next, a =>
      (next a.locals.length).course answer limits args (a.fork context)
  | .depth next, a => (next (a.depths 0).toNat).course answer limits args a
  | .limits next, a => (next limits).course answer limits args a
termination_by structural body => body

namespace Body

variable {answer : AnswerCourse} {limits : Limits} {count : Nat} {args : Fin count → Node}

theorem course_evaluate (context : Nat) (operand : Operand count) (next : Result → Body count)
    (a : CountedActivation) :
  (evaluate context operand next).course answer limits args a
    = ((resume next ((operand.node args).course answer (a.counted context)).result).course answer
        limits args
        (a.update context ((operand.node args).course answer (a.counted context)).state)).after
      ((operand.node args).course answer (a.counted context)).trace
  := by
  rw [course, resume]
  split <;> rfl

theorem course_call (context : Nat) (callee : Call (Operand count)) (next : Result → Body count)
    (a : CountedActivation) :
  (call context callee next).course answer limits args a
    = ((resume next (answer (callee.map (Operand.node args)) (a.counted context)).result).course
        answer limits args
        (a.update context
          (answer (callee.map (Operand.node args)) (a.counted context)).state)).after
      (answer (callee.map (Operand.node args)) (a.counted context)).trace
  := by
  rw [course, resume]
  split <;> rfl

end Body

/-- The contexts with which a called body starts: that of the caller, with one more open
call. -/
def Counted.opening (s : Counted) : CountedActivation :=
  ⟨⟨s.store, [s.locals]⟩, fun _ => s.depth + 1⟩

/-- Follows a body that has been found for a call: it counts one open call up, runs the
body, and counts one down. -/
def Counted.calling (s : Counted) (callee : Call Node) (body : Body callee.args.length)
    (run : CountedActivation → Course CountedActivation) : Course Counted :=
  let c := run s.opening
  let whole := Course.during (.call callee body) s.depth { c with state := c.state.counted 0 }
  { whole with state := { whole.state with depth := whole.state.depth - 1 } }

@[simp]
theorem Counted.events_calling (s : Counted) (callee : Call Node)
    (body : Body callee.args.length) (run : CountedActivation → Course CountedActivation) :
  (s.calling callee body run).events
    = .starts (.call callee body)
      :: ((run s.opening).events ++ [.ends (.call callee body) (run s.opening).result])
  := Course.events_during (.call callee body) s.depth _

/-- Follows a call.  There is room for one more open call as long as the count of the
context is below the limit; `budget` only bounds how deep calls are followed, and the
limit is reached before it is. -/
def answerCourse (limits : Limits) : (budget : Nat) → AnswerCourse
  | 0, c, s =>
      match s.store.bodyOf c with
      | .error e => .still (.error e) s
      | .ok _ => .still (fail (.callDepthExceeded limits.maxCallDepth)) s
  | budget + 1, c, s =>
      match s.store.bodyOf c with
      | .error e => .still (.error e) s
      | .ok body =>
          if limits.maxCallDepth ≤ s.depth then
            .still (fail (.callDepthExceeded limits.maxCallDepth)) s
          else
            s.calling c body (body.course (answerCourse limits budget) limits c.args.get)

namespace Context

/-- The environment of a context with its count of open calls. -/
def counted (c : Context) : Counted := ⟨c.environment, UInt64.ofNat c.depth⟩

/-- What happens when calls from the context are answered. -/
def answerCourse (c : Context) : AnswerCourse :=
  Stencil.answerCourse c.limits (c.limits.maxCallDepth.toNat - c.depth)

/-- Follows the evaluation of a node. -/
def course (c : Context) (n : Node) : Course Counted := n.course c.answerCourse c.counted

/-- Follows a call. -/
def callCourse (c : Context) (callee : Call Node) : Course Counted :=
  c.answerCourse callee c.counted

end Context

end Stencil
