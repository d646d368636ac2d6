import Stencil.Proofs.Course.Basic

/-!
# A run and its course

Following a run changes nothing about it: the course of a node, of a body and of a call has
the result and leaves the environment that evaluating, running and answering give
(`evaluate_eq_course`, `call_eq_course`).  The count of open calls is back where it was
when a course ends, so that the count of a context decides about room for a call as the
number of further calls does in `answer`.
-/

namespace Stencil

theorem proceeding_of_blocks {r : Result} (h : Result.blocks r = true) (env : Environment)
    (next : Value → Environment → Result × Environment) :
  proceeding (r, env) next = (r, env)
  := by
  match r with
  | .ok (.proceed v) => contradiction
  | .ok (.returning v s) => rfl
  | .ok (.terminating v s) => rfl
  | .error e => rfl

/-- The course has the result and the environment of `r`, and ends with the given count. -/
structure Course.Agrees (c : Course Counted) (depth : Size) (r : Result × Environment) :
    Prop where
  result : c.result = r.1
  state : c.state = ⟨r.2, depth⟩

namespace Course.Agrees

variable {depth : Size}

theorem still (result : Result) (env : Environment) :
  (Course.still result ⟨env, depth⟩).Agrees depth (result, env)
  := ⟨rfl, rfl⟩

theorem during {c : Course Counted} {r : Result × Environment} (h : c.Agrees depth r)
    (a : Activity) (start : Size) :
  (Course.during a start c).Agrees depth (a.conclude r.1, r.2)
  := ⟨congrArg a.conclude h.result, h.state⟩

theorem proceeding {c : Course Counted} {r : Result × Environment} (h : c.Agrees depth r)
    {next : Value → Counted → Course Counted}
    {next' : Value → Environment → Result × Environment}
    (hnext : ∀ v env, (next v ⟨env, depth⟩).Agrees depth (next' v env)) :
  (c.proceeding next).Agrees depth (Stencil.proceeding r next')
  := by
  obtain ⟨result, env⟩ := r
  obtain ⟨hresult, hstate⟩ := h
  rcases Result.proceeds_or_blocks result with ⟨v, rfl⟩ | hblocks
  · rw [Course.proceeding_of_proceed hresult, hstate]
    constructor
    · apply (hnext v env).result
    · apply (hnext v env).state
  · rw [Course.proceeding_of_blocks (hresult ▸ hblocks),
      Stencil.proceeding_of_blocks hblocks]
    apply mk hresult hstate

end Course.Agrees

/-- Following calls from contexts with the given count gives what answering them gives. -/
def AnswerCourse.Agrees (course : AnswerCourse) (depth : Size) (answer : Answer) : Prop :=
  ∀ callee env, (course callee ⟨env, depth⟩).Agrees depth (answer callee env)

section Agreement

variable {course : AnswerCourse} {answer : Answer} {depth : Size}

mutual

/-- The course of a node agrees with its evaluation. -/
theorem Node.course_agrees (hanswer : course.Agrees depth answer) :
    ∀ (n : Node) (env : Environment),
      (n.course course ⟨env, depth⟩).Agrees depth (n.evaluate answer env)
  | .literal v, env => by
      rw [Node.course, Node.evaluate]
      apply (Course.Agrees.still (proceed v) env).during
  | .reference name, env => by
      rw [Node.course, Node.evaluate, Counted.reading]
      constructor
      · simp only [Course.during, Course.after, Course.still, Activity.conclude]
        rcases env.read name with ⟨_ | v, env'⟩ <;> rfl
      · simp only [Course.during, Course.after, Course.still]
        rcases env.read name with ⟨_ | v, env'⟩ <;> rfl
  | .assignment name expression, env => by
      rw [Node.course, Node.evaluate]
      simp only
      split
      · apply (Course.Agrees.still (fail (.globalRedefinition name)) env).during
      · apply Course.Agrees.during
        apply (Node.course_agrees hanswer expression env).proceeding
        intro v env
        constructor <;> rfl
  | .dot receiver member args scope, env => by
      rw [Node.course, Node.evaluate]
      apply Course.Agrees.during
      apply (Node.course_agrees hanswer receiver env).proceeding
      intro v env
      apply hanswer
  | .call name args scope, env => by
      rw [Node.course, Node.evaluate]
      apply (hanswer (.function name args scope) env).during
  | .binary op left right, env => by
      rw [Node.course, Node.evaluate]
      apply Course.Agrees.during
      apply (Node.course_agrees hanswer left env).proceeding
      intro a env
      have hright : ∀ next : Value → Result,
          ((right.course course ⟨env, depth⟩).proceeding
              fun b s => .still (next b) s).Agrees depth
            (Stencil.proceeding (right.evaluate answer env) fun b env => (next b, env)) := by
        intro next
        apply (Node.course_agrees hanswer right env).proceeding
        intro b env
        apply Course.Agrees.still
      match op.decidedBy? with
      | none => apply hright
      | some deciding =>
          match a.truth with
          | .error e => apply Course.Agrees.still
          | .ok decided =>
              simp only
              split
              · apply Course.Agrees.still
              · apply hright
  | .negation operand, env => by
      rw [Node.course, Node.evaluate]
      apply Course.Agrees.during
      apply (Node.course_agrees hanswer operand env).proceeding
      intro v env
      apply Course.Agrees.still
  | .root children, env => by
      rw [Node.course, Node.evaluate]
      apply (Node.courseOfAll_agrees hanswer children "" env).during
  | .block children scope, env => by
      rw [Node.course, Node.evaluate]
      have h := Node.courseOfAll_agrees hanswer children "" env
      constructor
      · apply congrArg (Activity.conclude (.node (.block children scope))) h.result
      · simp only [Course.during, Course.inForkOf, h.state]
  | .returning expression scope, env => by
      rw [Node.course, Node.evaluate]
      apply Course.Agrees.during
      apply (Node.course_agrees hanswer expression env).proceeding
      intro v env
      apply Course.Agrees.still
  | .terminating expression scope, env => by
      rw [Node.course, Node.evaluate]
      apply Course.Agrees.during
      apply (Node.course_agrees hanswer expression env).proceeding
      intro v env
      apply Course.Agrees.still

/-- The course of nodes agrees with putting their display texts together. -/
theorem Node.courseOfAll_agrees (hanswer : course.Agrees depth answer) :
    ∀ (nodes : List Node) (text : String) (env : Environment),
      (Node.courseOfAll course nodes text ⟨env, depth⟩).Agrees depth
        (Node.concatenate answer nodes text env)
  | [], text, env => by
      rw [Node.courseOfAll, Node.concatenate]
      apply Course.Agrees.still
  | n :: rest, text, env => by
      rw [Node.courseOfAll, Node.concatenate]
      apply (Node.course_agrees hanswer n env).proceeding
      intro v env
      apply Node.courseOfAll_agrees hanswer rest

end

/-! ### Bodies -/

/-- The course has the result and the contexts of `r`, and all of them end with the given
count. -/
structure Course.AgreesAll (c : Course CountedActivation) (depth : Size)
    (r : Result × Activation) : Prop where
  result : c.result = r.1
  state : c.state.toActivation = r.2
  depths : ∀ i, c.state.depths i = depth

theorem Course.AgreesAll.after {c : Course CountedActivation} {r : Result × Activation}
    (h : c.AgreesAll depth r) (before : List Moment) :
  (c.after before).AgreesAll depth r
  := ⟨h.result, h.state, h.depths⟩

/-- All contexts have the given count. -/
def CountedActivation.Level (a : CountedActivation) (depth : Size) : Prop :=
  ∀ i, a.depths i = depth

namespace CountedActivation.Level

variable {a : CountedActivation}

theorem counted (h : a.Level depth) (i : Nat) :
  a.counted i = ⟨a.environment i, depth⟩
  := by rw [CountedActivation.counted, h i]

theorem update (h : a.Level depth) (context : Nat) {s : Counted} (hs : s.depth = depth) :
  (a.update context s).Level depth
  := by
  intro i
  simp only [CountedActivation.update]
  split
  · apply hs
  · apply h

theorem fork (h : a.Level depth) (context : Nat) :
  (a.fork context).Level depth
  := by
  intro i
  simp only [CountedActivation.fork]
  split <;> apply h

theorem withStore (h : a.Level depth) (store : Store) :
  (a.withStore store).Level depth
  := h

end CountedActivation.Level

/-- The course of a body agrees with its run while all contexts have the same count. -/
theorem Body.course_agrees (hanswer : course.Agrees depth answer) (limits : Limits)
    {count : Nat} (args : Fin count → Node) (body : Body count) (a : CountedActivation)
    (ha : a.Level depth) :
  (body.course course limits args a).AgreesAll depth
    (body.run answer limits depth.toNat args a.toActivation)
  := by
  induction body using Body.induction_on_resume generalizing a with
  | done result =>
      rw [Body.course, Body.run]
      constructor
      · rfl
      · rfl
      · apply ha
  | inspect i next ih =>
      rw [Body.course, Body.run]
      apply ih _ args _ ha
  | evaluate context operand next ih =>
      have h := (operand.node args).course_agrees hanswer (a.environment context)
      rw [Body.course_evaluate, Body.run_evaluate, ha.counted, h.result, h.state]
      apply (ih _ args _ (ha.update context rfl)).after
  | call context callee next ih =>
      have h := hanswer (callee.map (Operand.node args)) (a.environment context)
      rw [Body.course_call, Body.run_call, ha.counted, h.result, h.state]
      apply (ih _ args _ (ha.update context rfl)).after
  | read context name next ih =>
      rw [Body.course, Body.run]
      apply (ih _ args _ (ha.update context (ha context))).after
  | isGlobal name next ih =>
      rw [Body.course, Body.run]
      apply ih _ args _ ha
  | isLocal context name next ih =>
      rw [Body.course, Body.run]
      apply ih _ args _ ha
  | arity name next ih =>
      rw [Body.course, Body.run]
      apply ih _ args _ ha
  | bind context name v next ih =>
      rw [Body.course, Body.run]
      apply (ih args _ (ha.update context (ha context))).after
  | define name v next ih =>
      rw [Body.course, Body.run]
      apply (ih args _ (ha.withStore _)).after
  | register name accepted body next ih =>
      rw [Body.course, Body.run]
      apply (ih _ args _ (ha.withStore _)).after
  | fork context next ih =>
      rw [Body.course, Body.run]
      apply ih _ args _ (ha.fork context)
  | depth next ih =>
      rw [Body.course, Body.run, ha 0]
      apply ih _ args _ ha
  | limits next ih =>
      rw [Body.course, Body.run]
      apply ih _ args _ ha

end Agreement

/-! ### Calls -/

/-- The course of a call agrees with its answer, as long as the count of the context and
the number of further calls add up to the limit: the count is then at the limit exactly when
no further call may be opened. -/
theorem answerCourse_agrees (limits : Limits) (budget : Nat) (depth : Size)
    (h : depth.toNat + budget = limits.maxCallDepth.toNat) :
  (answerCourse limits budget).Agrees depth (answer limits budget depth.toNat)
  := by
  induction budget generalizing depth with
  | zero =>
      intro callee env
      rw [answerCourse, answer]
      match env.store.bodyOf callee with
      | .error e => apply Course.Agrees.still
      | .ok body => apply Course.Agrees.still
  | succ budget ih =>
      intro callee env
      rw [answerCourse, answer]
      match env.store.bodyOf callee with
      | .error e => apply Course.Agrees.still
      | .ok body =>
          have hroom : depth < limits.maxCallDepth := by
            rw [UInt64.lt_iff_toNat_lt]
            omega
          have hdepth := Size.toNat_add_one_of_lt hroom
          have hbody := body.course_agrees (ih (depth + 1) (by omega)) limits
            callee.args.get (Counted.opening ⟨env, depth⟩) (fun _ => rfl)
          rw [hdepth] at hbody
          simp only [if_neg (UInt64.not_le.mpr hroom)]
          constructor
          · apply hbody.result
          · simp only [Counted.calling, Course.during, CountedActivation.counted, hbody.state,
              hbody.depths, UInt64.add_sub_cancel]
            rfl

namespace Context

variable (c : Context)

theorem depth_lt_size :
  c.depth < UInt64.size
  := Nat.lt_of_le_of_lt c.depth_le c.limits.maxCallDepth.toNat_lt

theorem toNat_counted_depth :
  c.counted.depth.toNat = c.depth
  := UInt64.toNat_ofNat_of_lt c.depth_lt_size

/-- Following calls from a context gives what answering them gives. -/
theorem answerCourse_agrees :
  c.answerCourse.Agrees c.counted.depth c.answer
  := by
  have hbudget :
      c.counted.depth.toNat + (c.limits.maxCallDepth.toNat - c.depth)
        = c.limits.maxCallDepth.toNat := by
    have := c.depth_le
    rw [toNat_counted_depth]
    omega
  have h := Stencil.answerCourse_agrees c.limits _ c.counted.depth hbudget
  rw [toNat_counted_depth] at h
  apply h

theorem course_agrees (n : Node) :
  (c.course n).Agrees c.counted.depth (n.evaluate c.answer c.environment)
  := n.course_agrees c.answerCourse_agrees c.environment

theorem callCourse_agrees (callee : Call Node) :
  (c.callCourse callee).Agrees c.counted.depth (c.answer callee c.environment)
  := c.answerCourse_agrees callee c.environment

/-- Evaluating a node gives the result of its course and leaves its state behind. -/
theorem evaluate_eq_course (n : Node) :
  c.evaluate n = ((c.course n).result, c.withEnvironment (c.course n).state.toEnvironment)
  := by
  have h := c.course_agrees n
  rw [h.result, h.state]
  rfl

/-- A call gives the result of its course and leaves its state behind. -/
theorem call_eq_course (callee : Call Node) :
  c.call callee
    = ((c.callCourse callee).result,
        c.withEnvironment (c.callCourse callee).state.toEnvironment)
  := by
  have h := c.callCourse_agrees callee
  rw [h.result, h.state]
  rfl

end Context

end Stencil
