import Mathlib.Logic.Function.Iterate
import Stencil.Proofs.Course.Activity
import Stencil.Proofs.Node
import Stencil.Proofs.Plain

/-!
# Evaluation one step at a time

A machine does one step of a body at a time.  What is in progress lies on a stack: the
innermost activity runs its body, and those around it wait for a result, each with what it
goes on with.  Nothing bounds the number of steps or the height of the stack; the only check
is that a call finds its context below the limit.

The machine does what courses follow: from the start of an activity it reaches the end of
that activity, with the result and the state of its course (`Machine.reaches_end`).
-/

namespace Stencil

/-- An activity in progress: the arguments of its body, the count of open calls when it
started, and the contexts that its body knows. -/
structure Level (count : Nat) where
  activity : Activity
  args : Fin count → Node
  depth : Size
  contexts : CountedActivation

/-- The activity after its contexts have changed. -/
def Level.withContexts {count : Nat} (l : Level count) (contexts : CountedActivation) :
    Level count :=
  { l with contexts := contexts }

/-- An activity in progress that waits for what is evaluated or called in one of its contexts,
and what it goes on with. -/
structure Waiting where
  count : Nat
  level : Level count
  context : Nat
  next : Result → Body count

/-- A machine runs the body of the innermost activity, or has ended. -/
inductive Machine where
  | running {count : Nat} (level : Level count) (body : Body count) (waiting : List Waiting)
  | ended (result : Result) (s : Counted)

namespace Machine

/-- Starts an activity. -/
def start (a : Activity) (s : Counted) (waiting : List Waiting) : Machine :=
  .running ⟨a, a.args.get, s.depth, a.opening s⟩ a.body waiting

/-- Hands a result to what waits for it, which does not go on if the run is aborted. -/
def resume (result : Result) (s : Counted) : List Waiting → Machine
  | [] => .ended result s
  | w :: waiting =>
      .running (w.level.withContexts (w.level.contexts.update w.context s))
        (Body.resume w.next result) waiting

/-- Starts a call: what is called must exist and accept the number of arguments, and the
count of the context must be below the limit. -/
def enter (limits : Limits) (callee : Call Node) (s : Counted) (waiting : List Waiting) :
    Machine :=
  match s.store.bodyOf callee with
  | .error e => resume (.error e) s waiting
  | .ok body =>
      if limits.maxCallDepth ≤ s.depth then
        resume (fail (.callDepthExceeded limits.maxCallDepth)) s waiting
      else start (.call callee body) s waiting

/-- One step. -/
def step (limits : Limits) : Machine → Machine
  | .ended result s => .ended result s
  | .running l body waiting =>
      match body with
      | .done result =>
          resume (l.activity.conclude result) (l.activity.closing (l.contexts.counted 0)) waiting
      | .inspect i next => .running l (next (l.args i)) waiting
      | .evaluate context operand next =>
          start (.node (operand.node l.args)) (l.contexts.counted context)
            (⟨_, l, context, next⟩ :: waiting)
      | .call context callee next =>
          enter limits (callee.map (Operand.node l.args)) (l.contexts.counted context)
            (⟨_, l, context, next⟩ :: waiting)
      | .read context name next =>
          let (v, env) := (l.contexts.environment context).read name
          let contexts := l.contexts.update context ⟨env, l.contexts.depths context⟩
          .running (l.withContexts contexts) (next v) waiting
      | .isGlobal name next =>
          .running l (next (l.contexts.store.globals.contains name)) waiting
      | .isLocal context name next =>
          .running l (next ((l.contexts.environment context).locals.contains name)) waiting
      | .arity name next =>
          .running l (next ((l.contexts.store.functions.get? name).map Function.arity)) waiting
      | .bind context name v next =>
          let env := (l.contexts.environment context).bind name v
          let contexts := l.contexts.update context ⟨env, l.contexts.depths context⟩
          .running (l.withContexts contexts) next waiting
      | .define name v next =>
          .running (l.withContexts (l.contexts.withStore (l.contexts.store.define name v))) next
            waiting
      | .register name accepted body next =>
          let (outcome, store) := l.contexts.store.register name ⟨accepted, body⟩
          .running (l.withContexts (l.contexts.withStore store)) (next outcome) waiting
      | .fork context next =>
          .running (l.withContexts (l.contexts.fork context)) (next l.contexts.locals.length)
            waiting
      | .depth next => .running l (next (l.contexts.depths 0).toNat) waiting
      | .limits next => .running l (next limits) waiting

/-- The second machine is reached from the first one in some number of steps. -/
def Reaches (limits : Limits) (m m' : Machine) : Prop := ∃ k, (step limits)^[k] m = m'

namespace Reaches

variable {limits : Limits} {m m' m'' : Machine}

theorem refl (m : Machine) :
  Reaches limits m m
  := ⟨0, rfl⟩

theorem trans (h : Reaches limits m m') (h' : Reaches limits m' m'') :
  Reaches limits m m''
  := by
  obtain ⟨k, rfl⟩ := h
  obtain ⟨k', rfl⟩ := h'
  exact ⟨k' + k, Function.iterate_add_apply _ k' k m⟩

theorem of_step (h : Reaches limits (step limits m) m') :
  Reaches limits m m'
  := by
  obtain ⟨k, rfl⟩ := h
  exact ⟨k + 1, rfl⟩

end Reaches

/-- From contexts with the given count, the machine reaches the ends of the courses of a
node. -/
def Evaluates (limits : Limits) (answer : AnswerCourse) (depth : Size) (n : Node) : Prop :=
  ∀ s waiting, s.depth = depth →
    Reaches limits (start (.node n) s waiting)
      (resume (n.course answer s).result (n.course answer s).state waiting)

/-- From contexts with the given count, the machine reaches the ends of the courses of
calls. -/
def Answers (limits : Limits) (answer : AnswerCourse) (depth : Size) : Prop :=
  ∀ callee s waiting, s.depth = depth →
    Reaches limits (enter limits callee s waiting)
      (resume (answer callee s).result (answer callee s).state waiting)

section Reaches

variable {limits : Limits} {answer : AnswerCourse} {depth : Size}

/-- The machine reaches the end of the course of a body, while all contexts have the same
count. -/
theorem reaches_done
    (hrestored : ∀ callee s, (answer callee s).TalliedFrom limits.maxCallDepth s)
    (hanswer : Answers limits answer depth) {count : Nat} {body : Body count} (level : Level count)
    (waiting : List Waiting) (hargs : ∀ i, Evaluates limits answer depth (level.args i))
    (hown : body.Always (Body.OwnTree (Evaluates limits answer depth)))
    (hdepth : level.contexts.Level depth) :
  Reaches limits (running level body waiting)
    (running (level.withContexts (body.course answer limits level.args level.contexts).state)
      (.done (body.course answer limits level.args level.contexts).result) waiting)
  := by
  have hnode : ∀ (n : Node) s, (n.course answer s).state.depth = s.depth := fun n s =>
    (n.course_induction (Course.TalliedFrom.closed limits).toClosed hrestored s).restored
  induction body using Body.induction_on_resume with
  | done result => apply Reaches.refl
  | inspect i next ih =>
      apply Reaches.of_step
      apply ih _ level hargs (hown.2 _) hdepth
  | evaluate context operand next ih =>
      rw [Body.course_evaluate]
      apply Reaches.of_step
      have hoperand : Evaluates limits answer depth (operand.node level.args) :=
        Body.OwnTree.node hown.1 hargs
      apply (hoperand _ _ (hdepth context)).trans
      apply ih _ (level.withContexts _)
      · apply hargs
      · apply Body.OwnTree.resume hown.2
      · apply hdepth.update
        rw [hnode, CountedActivation.counted, hdepth]
  | call context callee next ih =>
      rw [Body.course_call]
      apply Reaches.of_step
      apply (hanswer _ _ _ (hdepth context)).trans
      apply ih _ (level.withContexts _)
      · apply hargs
      · apply Body.OwnTree.resume hown.2
      · apply hdepth.update
        rw [(hrestored _ _).restored, CountedActivation.counted, hdepth]
  | read context name next ih =>
      apply Reaches.of_step
      apply ih _ (level.withContexts _)
      · apply hargs
      · apply hown.2
      · apply hdepth.update _ (hdepth context)
  | isGlobal name next ih =>
      apply Reaches.of_step
      apply ih _ level hargs (hown.2 _) hdepth
  | isLocal context name next ih =>
      apply Reaches.of_step
      apply ih _ level hargs (hown.2 _) hdepth
  | arity name next ih =>
      apply Reaches.of_step
      apply ih _ level hargs (hown.2 _) hdepth
  | bind context name v next ih =>
      apply Reaches.of_step
      apply ih (level.withContexts _)
      · apply hargs
      · apply hown.2
      · apply hdepth.update _ (hdepth context)
  | define name v next ih =>
      apply Reaches.of_step
      apply ih (level.withContexts _)
      · apply hargs
      · apply hown.2
      · apply hdepth.withStore
  | register name accepted body next ih =>
      apply Reaches.of_step
      apply ih _ (level.withContexts _)
      · apply hargs
      · apply hown.2
      · apply hdepth.withStore
  | fork context next ih =>
      apply Reaches.of_step
      apply ih _ (level.withContexts _)
      · apply hargs
      · apply hown.2
      · apply hdepth.fork
  | depth next ih =>
      apply Reaches.of_step
      apply ih _ level hargs (hown.2 _) hdepth
  | limits next ih =>
      apply Reaches.of_step
      apply ih _ level hargs (hown.2 _) hdepth

/-- The machine reaches the end of an activity. -/
theorem reaches_end
    (hrestored : ∀ callee s, (answer callee s).TalliedFrom limits.maxCallDepth s)
    (a : Activity) (s : Counted) (waiting : List Waiting)
    (hanswer : Answers limits answer (a.depthInside s.depth))
    (hargs : ∀ i, Evaluates limits answer (a.depthInside s.depth) (a.args.get i))
    (hown : a.body.Always (Body.OwnTree (Evaluates limits answer (a.depthInside s.depth)))) :
  Reaches limits (start a s waiting)
    (resume (a.course answer limits s).result (a.course answer limits s).state waiting)
  := by
  apply (reaches_done hrestored hanswer _ waiting hargs hown fun _ => rfl).trans
  apply Reaches.of_step
  apply Reaches.refl

/-- The machine reaches the ends of nodes, if it reaches those of calls. -/
theorem evaluates (hrestored : ∀ callee s, (answer callee s).TalliedFrom limits.maxCallDepth s)
    (hanswer : Answers limits answer depth) (n : Node) :
  Evaluates limits answer depth n
  := by
  induction n using Node.induction_on_children with
  | h n ih =>
      rintro s waiting rfl
      rw [n.course_eq_activity limits]
      apply reaches_end hrestored (.node n) s waiting hanswer _ (n.plain_body.ownTree _)
      intro i
      apply ih _ (List.get_mem _ i)

/-- The machine reaches the ends of calls, as long as the budget does not run out before the
limit is reached. -/
theorem answers (budget : Nat) (depth : Size)
    (h : limits.maxCallDepth.toNat ≤ depth.toNat + budget) :
  Answers limits (answerCourse limits budget) depth
  := by
  induction budget generalizing depth with
  | zero =>
      rintro callee s waiting rfl
      have hfull : limits.maxCallDepth ≤ s.depth := UInt64.le_iff_toNat_le.mpr h
      rw [enter, answerCourse]
      cases s.store.bodyOf callee with
      | error e => apply Reaches.refl
      | ok body =>
          simp only [if_pos hfull]
          apply Reaches.refl
  | succ budget ih =>
      rintro callee s waiting rfl
      rw [enter, answerCourse]
      cases s.store.bodyOf callee with
      | error e => apply Reaches.refl
      | ok body =>
          simp only
          split
          · apply Reaches.refl
          · rename_i hroom
            have hinside : limits.maxCallDepth.toNat ≤ (s.depth + 1).toNat + budget := by
              rw [Size.toNat_add_one_of_lt (UInt64.not_le.mp hroom)]
              omega
            have hrestored := answerCourse_induction (Course.TalliedFrom.closed limits) budget
            have hanswer := ih (s.depth + 1) hinside
            rw [Counted.calling_eq_activity]
            apply reaches_end hrestored (.call callee body) s waiting hanswer
            · intro i
              apply evaluates hrestored hanswer
            · apply Body.always_ownTree
              intro n
              apply evaluates hrestored hanswer

end Reaches

end Machine

/-- Started with a node, the machine ends with what the evaluation of the node gives. -/
theorem Context.reaches_evaluate (c : Context) (n : Node) :
  Machine.Reaches c.limits (.start (.node n) c.counted [])
    (.ended (c.evaluate n).1 (c.evaluate n).2.counted)
  := by
  have hbudget : c.limits.maxCallDepth.toNat
      ≤ c.counted.depth.toNat + (c.limits.maxCallDepth.toNat - c.depth) := by
    rw [c.toNat_counted_depth]
    omega
  have hanswer := Machine.answers _ c.counted.depth hbudget
  have hrestored := answerCourse_induction (Course.TalliedFrom.closed c.limits)
    (c.limits.maxCallDepth.toNat - c.depth)
  have hstate : (c.course n).state
      = (c.withEnvironment (c.course n).state.toEnvironment).counted := by
    have hdepth : (c.course n).state.depth = c.counted.depth :=
      (c.course_induction (Course.TalliedFrom.closed c.limits) n).restored
    exact congrArg (Counted.mk (c.course n).state.toEnvironment) hdepth
  rw [c.evaluate_eq_course, ← hstate]
  apply Machine.evaluates hrestored hanswer n c.counted [] rfl

end Stencil
