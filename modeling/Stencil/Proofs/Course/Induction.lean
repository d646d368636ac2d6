import Stencil.Proofs.Course.Basic

/-!
# Induction on the course of a run

A property of courses that is closed under the ways in which nodes put courses together
holds of the course of every node, if it holds of the courses of the calls that are made
(`Node.course_induction`).  If a property of the courses of bodies goes with it, both hold
of everything that happens in a run (`Context.course_induction`,
`Context.callCourse_induction`).
-/

namespace Stencil

/-- What is special inside a node: a node that returns evaluates its expression, inside which
`P` holds, and returns its value. -/
def Node.Inside (P : Course Counted → Prop) : Node → Course Counted → Prop
  | .returning expression scope, c =>
      ∃ depth inner, P inner ∧ c = (Course.during (.node expression) depth inner).proceeding
        fun v s => .still (.ok (.returning v scope)) s
  | _, _ => True

namespace Course

/-- `P` is closed under the ways in which nodes put courses together. -/
structure Closed (P : Counted → Course Counted → Prop) : Prop where
  still : ∀ result s, P s (.still result s)
  reading : ∀ s name, P s (s.reading name)
  binding : ∀ s name v, P s (s.binding name v)
  proceeding : ∀ s c next, P s c → (∀ v, c.result = proceed v → P c.state (next v c.state)) →
    P s (c.proceeding next)
  inForkOf : ∀ s c, P s c → P s (c.inForkOf s)
  node : ∀ s n c, P s c → n.Inside (P s) c → P s (.during (.node n) s.depth c)

/-- `P` is closed under what nodes do, `Q` under what bodies do, and a call for which there
is room passes from `Q` to `P`. -/
structure ClosedAll (limits : Limits) (P : Counted → Course Counted → Prop)
    (Q : CountedActivation → Course CountedActivation → Prop) : Prop extends Closed P where
  calling : ∀ s callee body run, s.depth < limits.maxCallDepth → (∀ a, Q a (run a)) →
    P s (s.calling callee body run)
  done : ∀ result a, Q a (.still result a)
  acting : ∀ a context c c', P (a.counted context) c → Q (a.update context c.state) c' →
    Q a (c'.after c.trace)
  defining : ∀ a name v c, Q (a.withStore (a.store.define name v)) c →
    Q a (c.after [⟨.defines name, a.depths 0⟩])
  registering : ∀ a name f c, Q (a.withStore (a.store.register name f).2) c →
    Q a (c.after [⟨.registers name, a.depths 0⟩])
  forking : ∀ a context c, Q (a.fork context) c → Q a c

end Course

/-! ### Nodes -/

section Nodes

variable {P : Counted → Course Counted → Prop} {answer : AnswerCourse}

/-- The course is that of a node, and `P` holds inside. -/
def Node.HoldsInside (P : Counted → Course Counted → Prop) (n : Node) (s : Counted)
    (c : Course Counted) : Prop :=
  ∃ inner, P s inner ∧ n.Inside (P s) inner ∧ c = .during (.node n) s.depth inner

theorem Node.HoldsInside.holds {n : Node} {s : Counted} {c : Course Counted}
    (hc : n.HoldsInside P s c) (h : Course.Closed P) :
  P s c
  := by
  obtain ⟨inner, hP, hinside, rfl⟩ := hc
  apply h.node s n inner hP hinside

mutual

/-- `P` holds inside every node. -/
theorem Node.course_holdsInside (h : Course.Closed P)
    (hanswer : ∀ callee s, P s (answer callee s)) :
    ∀ (n : Node) (s : Counted), n.HoldsInside P s (n.course answer s)
  | .literal v, s => by
      rw [Node.course]
      exact ⟨_, h.still (proceed v) s, trivial, rfl⟩
  | .reference name, s => by
      rw [Node.course]
      exact ⟨_, h.reading s name, trivial, rfl⟩
  | .assignment name expression, s => by
      rw [Node.course]
      refine ⟨_, ?_, trivial, rfl⟩
      split
      · apply h.still
      · apply h.proceeding _ _ _ ((expression.course_holdsInside h hanswer s).holds h)
        intro v _
        apply h.binding
  | .dot receiver member args scope, s => by
      rw [Node.course]
      refine ⟨_, ?_, trivial, rfl⟩
      apply h.proceeding _ _ _ ((receiver.course_holdsInside h hanswer s).holds h)
      intro v _
      apply hanswer
  | .call name args scope, s => by
      rw [Node.course]
      exact ⟨_, hanswer (.function name args scope) s, trivial, rfl⟩
  | .binary op left right, s => by
      rw [Node.course]
      refine ⟨_, ?_, trivial, rfl⟩
      apply h.proceeding _ _ _ ((left.course_holdsInside h hanswer s).holds h)
      intro a _
      generalize (left.course answer s).state = s
      have hright : ∀ next : Value → Result,
          P s ((right.course answer s).proceeding fun b s => .still (next b) s) := by
        intro next
        apply h.proceeding _ _ _ ((right.course_holdsInside h hanswer s).holds h)
        intro b _
        apply h.still
      match op.decidedBy? with
      | none => apply hright
      | some deciding =>
          match a.truth with
          | .error e => apply h.still
          | .ok decided =>
              simp only
              split
              · apply h.still
              · apply hright
  | .negation operand, s => by
      rw [Node.course]
      refine ⟨_, ?_, trivial, rfl⟩
      apply h.proceeding _ _ _ ((operand.course_holdsInside h hanswer s).holds h)
      intro v _
      apply h.still
  | .root children, s => by
      rw [Node.course]
      exact ⟨_, Node.courseOfAll_induction h hanswer children "" s, trivial, rfl⟩
  | .block children scope, s => by
      rw [Node.course]
      refine ⟨_, ?_, trivial, rfl⟩
      apply h.inForkOf _ _ (Node.courseOfAll_induction h hanswer children "" s)
  | .returning expression scope, s => by
      rw [Node.course]
      have hexpression := expression.course_holdsInside h hanswer s
      refine ⟨_, ?_, ?_, rfl⟩
      · apply h.proceeding _ _ _ (hexpression.holds h)
        intro v _
        apply h.still
      · obtain ⟨inner, hP, -, hinner⟩ := hexpression
        exact ⟨s.depth, inner, hP, by rw [hinner]⟩
  | .terminating expression scope, s => by
      rw [Node.course]
      refine ⟨_, ?_, trivial, rfl⟩
      apply h.proceeding _ _ _ ((expression.course_holdsInside h hanswer s).holds h)
      intro v _
      apply h.still

theorem Node.courseOfAll_induction (h : Course.Closed P)
    (hanswer : ∀ callee s, P s (answer callee s)) :
    ∀ (nodes : List Node) (text : String) (s : Counted),
      P s (Node.courseOfAll answer nodes text s)
  | [], text, s => by
      rw [Node.courseOfAll]
      apply h.still
  | n :: rest, text, s => by
      rw [Node.courseOfAll]
      apply h.proceeding _ _ _ ((n.course_holdsInside h hanswer s).holds h)
      intro v _
      apply Node.courseOfAll_induction h hanswer rest

end

theorem Node.course_induction (h : Course.Closed P)
    (hanswer : ∀ callee s, P s (answer callee s)) (n : Node) (s : Counted) :
  P s (n.course answer s)
  := (n.course_holdsInside h hanswer s).holds h

end Nodes

/-! ### Bodies and calls -/

section Calls

variable {limits : Limits} {P : Counted → Course Counted → Prop}
  {Q : CountedActivation → Course CountedActivation → Prop}

theorem Body.course_induction (h : Course.ClosedAll limits P Q) {answer : AnswerCourse}
    (hanswer : ∀ callee s, P s (answer callee s)) {count : Nat} (args : Fin count → Node)
    (body : Body count) (a : CountedActivation) :
  Q a (body.course answer limits args a)
  := by
  induction body using Body.induction_on_resume generalizing a with
  | done result =>
      rw [Body.course]
      apply h.done
  | inspect i next ih =>
      rw [Body.course]
      apply ih
  | evaluate context operand next ih =>
      rw [Body.course_evaluate]
      apply h.acting _ context
      · apply Node.course_induction h.toClosed hanswer
      · apply ih
  | call context callee next ih =>
      rw [Body.course_call]
      apply h.acting _ context
      · apply hanswer
      · apply ih
  | read context name next ih =>
      rw [Body.course]
      apply h.acting _ context ((a.counted context).reading name) _ (h.reading _ name)
      apply ih
  | isGlobal name next ih =>
      rw [Body.course]
      apply ih
  | isLocal context name next ih =>
      rw [Body.course]
      apply ih
  | arity name next ih =>
      rw [Body.course]
      apply ih
  | bind context name v next ih =>
      rw [Body.course]
      apply h.acting _ context ((a.counted context).binding name v) _ (h.binding _ name v)
      apply ih
  | define name v next ih =>
      rw [Body.course]
      apply h.defining
      apply ih
  | register name accepted body next ih =>
      rw [Body.course]
      apply h.registering
      apply ih
  | fork context next ih =>
      rw [Body.course]
      apply h.forking _ context
      apply ih
  | depth next ih =>
      rw [Body.course]
      apply ih
  | limits next ih =>
      rw [Body.course]
      apply ih

theorem answerCourse_induction (h : Course.ClosedAll limits P Q) (budget : Nat)
    (callee : Call Node) (s : Counted) :
  P s (answerCourse limits budget callee s)
  := by
  induction budget generalizing callee s with
  | zero =>
      rw [answerCourse]
      match s.store.bodyOf callee with
      | .error e => apply h.still
      | .ok body => apply h.still
  | succ budget ih =>
      rw [answerCourse]
      match s.store.bodyOf callee with
      | .error e => apply h.still
      | .ok body =>
          simp only
          split
          · apply h.still
          · rename_i hroom
            apply h.calling _ _ _ _ (UInt64.not_le.mp hroom)
            intro a
            apply body.course_induction h ih

namespace Context

theorem callCourse_induction (c : Context) (h : Course.ClosedAll c.limits P Q)
    (callee : Call Node) :
  P c.counted (c.callCourse callee)
  := Stencil.answerCourse_induction h _ callee c.counted

theorem course_induction (c : Context) (h : Course.ClosedAll c.limits P Q) (n : Node) :
  P c.counted (c.course n)
  := n.course_induction h.toClosed (Stencil.answerCourse_induction h _) c.counted

end Context

end Calls

end Stencil
