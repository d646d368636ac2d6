import Stencil.Proofs.CallDepth
import Stencil.Proofs.Node

/-!
# Activities run bodies

What a node does with its subtrees is what a body does with its arguments: it has them
evaluated, goes on with what they give, calls functions and members, reads and binds names,
and forks the context of its caller if it is a block.  `Node.body` is that body.  So the
evaluation of a node and a call go on in the same way, they run a body, and `Activity.course`
is the course of either (`Node.course_eq_activity`, `Counted.calling_eq_activity`).  Whatever
holds of bodies in general then holds of nodes as well, and what is special about a node can
be read off its body.

What passes to an activity from all that happens inside of it holds of all nodes and calls
(`Course.Inductive`): the induction is on the tree for nodes, and on the number of calls that may
still be opened for calls.
-/

namespace Stencil

/-- Evaluates operands in a context, from left to right, and puts the display texts of their
values together after `text`. -/
def Body.concatenation {count : Nat} (context : Nat) (operands : List (Operand count))
    (text : String) : Body count :=
  match operands with
  | [] => .done (proceed (.string text))
  | operand :: rest =>
      .value context operand fun v => concatenation context rest (text ++ v.display)

/-- What a node does with its subtrees, which are the arguments of the body.  That a block
takes the returns aimed at it is left to the end of its evaluation. -/
def Node.body : (n : Node) → Body n.children.length
  | .literal v => .done (proceed v)
  | .reference name =>
      .read 0 name fun v => .done (v.elim (fail (.undefinedVariable name)) proceed)
  | .assignment name _ =>
      .isGlobal name fun isGlobal =>
        if isGlobal then .done (fail (.globalRedefinition name))
        else
          .value 0 (.arg ⟨0, Nat.one_pos⟩) fun v =>
            .bind 0 name (.constant v) (.done (proceed .empty))
  | .dot _ member args scope =>
      .value 0 (.arg ⟨0, Nat.succ_pos _⟩) fun v =>
        .call 0 (.member v member ((List.finRange args.length).map fun i => .arg i.succ) scope)
          .done
  | .call name args scope => .call 0 (.function name (Operand.all args.length) scope) .done
  | .binary op _ _ =>
      .value 0 (.arg ⟨0, Nat.two_pos⟩) fun a =>
        let right := .value 0 (.arg ⟨1, Nat.one_lt_two⟩) fun b =>
          .done (.ofValue (op.evaluate a b))
        match op.decidedBy? with
        | none => right
        | some deciding =>
            match a.truth with
            | .error e => .done (.error e)
            | .ok decided =>
                if decided = deciding then .done (proceed (.boolean decided)) else right
  | .negation _ => .value 0 (.arg ⟨0, Nat.one_pos⟩) fun v => .done (.ofValue (v.gate .not v))
  | .root children => .concatenation 0 (Operand.all children.length) ""
  | .block children _ =>
      .fork 0 fun inner => .concatenation inner (Operand.all children.length) ""
  | .returning _ scope =>
      .value 0 (.arg ⟨0, Nat.one_pos⟩) fun v => .done (.ok (.returning v scope))
  | .terminating _ scope =>
      .value 0 (.arg ⟨0, Nat.one_pos⟩) fun v => .done (.ok (.terminating v scope))

/-! ### Operands -/

namespace Operand

theorem map_node_all (nodes : List Node) :
  (all nodes.length).map (node nodes.get) = nodes
  := by
  rw [all, List.map_map, List.finRange, List.map_ofFn]
  apply List.ofFn_getElem

/-- The operands after the first one. -/
theorem map_node_tail (first : Node) (rest : List Node) :
  ((List.finRange rest.length).map fun i => arg i.succ).map (node (first :: rest).get) = rest
  := by
  rw [List.map_map, List.finRange, List.map_ofFn]
  apply List.ofFn_getElem

end Operand

/-! ### Courses in one of several contexts -/

namespace CountedActivation

variable (a : CountedActivation) {context : Nat}

theorem counted_update (h : context < a.locals.length) (s : Counted) :
  (a.update context s).counted context = s
  := by
  simp [counted, update, Activation.update, Activation.environment, List.getD_eq_getElem?_getD, h]

theorem update_update (s s' : Counted) :
  (a.update context s).update context s' = a.update context s'
  := by
  simp only [update, Activation.update, List.set_set, mk.injEq, true_and]
  funext i
  split <;> rfl

theorem update_counted (context : Nat) :
  a.update context (a.counted context) = a
  := by
  have hdepths : (fun i => if i = context then a.depths context else a.depths i) = a.depths := by
    funext i
    split
    · rename_i hi
      rw [hi]
    · rfl
  have hlocals : a.locals.set context (a.locals.getD context {}) = a.locals := by
    rw [List.getD_eq_getElem?_getD]
    apply List.ext_getElem?
    intro i
    rw [List.getElem?_set]
    split
    · rename_i hi
      subst hi
      split
      · rename_i hlt
        rw [List.getElem?_eq_getElem hlt]
        rfl
      · rename_i hge
        rw [List.getElem?_eq_none (Nat.le_of_not_lt hge)]
    · rfl
  simp only [update, counted, Activation.update, Activation.environment, hlocals, hdepths]

end CountedActivation

namespace Course

/-- A course in one of the contexts that a body knows. -/
def within (c : Course Counted) (a : CountedActivation) (context : Nat) :
    Course CountedActivation :=
  { c with state := a.update context c.state }

/-- The course of a body as the context of its caller sees it. -/
def outer (c : Course CountedActivation) : Course Counted :=
  { c with state := c.state.counted 0 }

end Course

namespace Body

variable {count : Nat} {answer : AnswerCourse} {limits : Limits} {args : Fin count → Node}
  {a : CountedActivation} {context : Nat}

/-- Going on with the value of an operand, in a context of a body. -/
theorem course_value (h : context < a.locals.length) (operand : Operand count)
    {next : Value → Body count} {next' : Value → Counted → Course Counted}
    (hnext : ∀ v s, (next v).course answer limits args (a.update context s)
      = (next' v s).within a context) (s : Counted) :
  (value context operand next).course answer limits args (a.update context s)
    = (((operand.node args).course answer s).proceeding next').within a context
  := by
  rw [value, course_evaluate, resume_value]
  simp only [a.counted_update h, a.update_update]
  generalize (operand.node args).course answer s = c
  obtain ⟨result, state, trace⟩ := c
  rcases result with e | ⟨v⟩ | ⟨v, scope⟩ | ⟨v, scope⟩
  case ok.proceed =>
    simp only [hnext, Course.proceeding]
    rfl
  all_goals
    simp only [Body.course, Course.proceeding, Course.after, Course.still, Course.within,
      List.append_nil]

/-- Ending, in a context of a body. -/
theorem course_done (result : Result) (s : Counted) :
  (done result).course answer limits args (a.update context s)
    = (Course.still result s).within a context
  := rfl

/-- Binding a name at the end, in a context of a body. -/
theorem course_bind (h : context < a.locals.length) (name : String) (v : Variable)
    (s : Counted) :
  (bind context name v (.done (proceed .empty))).course answer limits args (a.update context s)
    = (s.binding name v).within a context
  := by
  have hcounted := a.counted_update h s
  have henvironment : (a.update context s).environment context = s.toEnvironment :=
    congrArg Counted.toEnvironment hcounted
  have hdepth : (a.update context s).depths context = s.depth := congrArg Counted.depth hcounted
  rw [course, course, henvironment, hdepth, a.update_update]
  rfl

/-- Ending with what a call gives, in a context of a body. -/
theorem course_call_done (h : context < a.locals.length) (callee : Call (Operand count))
    (s : Counted) :
  (call context callee .done).course answer limits args (a.update context s)
    = (answer (callee.map (Operand.node args)) s).within a context
  := by
  rw [course_call, resume_done]
  simp only [course, a.counted_update h, a.update_update, Course.after, Course.still,
    Course.within, List.append_nil]

/-- Putting the display texts of operands together, in a context of a body. -/
theorem course_concatenation (h : context < a.locals.length) (operands : List (Operand count))
    (text : String) (s : Counted) :
  (concatenation context operands text).course answer limits args (a.update context s)
    = (Node.courseOfAll answer (operands.map (Operand.node args)) text s).within a context
  := by
  induction operands generalizing text s with
  | nil =>
      rw [concatenation, List.map_nil, Node.courseOfAll, Body.course]
      rfl
  | cons operand rest ih =>
      rw [concatenation, List.map_cons, Node.courseOfAll]
      apply course_value h
      intro v s
      apply ih

end Body

namespace Activity

/-- The subtrees of a node, or the arguments of a call. -/
def args : Activity → List Node
  | node n => n.children
  | call callee _ => callee.args

/-- The body that the activity runs. -/
def body : (a : Activity) → Body a.args.length
  | node n => n.body
  | call _ body => body

/-- The contexts with which the body starts. -/
def opening (a : Activity) (s : Counted) : CountedActivation :=
  ⟨⟨s.store, [s.locals]⟩, fun _ => a.depthInside s.depth⟩

/-- The state that the activity leaves behind, when the context in which it runs ends with
the given one: a call counts one open call down. -/
def closing (a : Activity) (s : Counted) : Counted :=
  { s with depth := if a.isCall then s.depth - 1 else s.depth }

/-- Follows an activity. -/
def course (answer : AnswerCourse) (limits : Limits) (a : Activity) (s : Counted) :
    Course Counted :=
  let c := Course.during a s.depth
    (a.body.course answer limits a.args.get (a.opening s)).outer
  { c with state := a.closing c.state }

end Activity

/-! ### Inside nodes -/

namespace Activity

variable {answer : AnswerCourse} {limits : Limits} {s : Counted}

theorem update_opening (n : Node) (s : Counted) :
  ((node n).opening s).update 0 s = (node n).opening s
  := ((node n).opening s).update_counted 0

/-- What a body that goes on with the value of an operand does inside a node. -/
theorem during_course_value (n : Node) (operand : Operand n.children.length)
    {next : Value → Body n.children.length} {next' : Value → Counted → Course Counted}
    (hnext : ∀ v s', (next v).course answer limits n.children.get
        (((node n).opening s).update 0 s')
      = (next' v s').within ((node n).opening s) 0) :
  Course.during (.node n) s.depth
      ((Body.value 0 operand next).course answer limits n.children.get ((node n).opening s)).outer
    = .during (.node n) s.depth (((operand.node n.children.get).course answer s).proceeding next')
  := by
  rw [← update_opening, Body.course_value Nat.one_pos operand hnext]
  rfl

end Activity

/-- What happens inside a node is the course of its body. -/
theorem Node.course_eq_body {answer : AnswerCourse} (limits : Limits) (n : Node) (s : Counted) :
  n.course answer s
    = .during (.node n) s.depth
      (n.body.course answer limits n.children.get ((Activity.node n).opening s)).outer
  := by
  have hopening := Activity.update_opening n s
  apply Eq.symm
  cases n with
  | literal v =>
      rw [Node.course, Node.body, Body.course]
      rfl
  | reference name =>
      rw [Node.course, Node.body, Body.course]
      rfl
  | assignment name expression =>
      rw [Node.course, Node.body, Body.course]
      have hglobal : ((Activity.node (.assignment name expression)).opening s).store = s.store :=
        rfl
      rw [hglobal]
      split
      · rfl
      · apply Activity.during_course_value
        intro v s
        apply Body.course_bind Nat.one_pos
  | dot receiver member args scope =>
      rw [Node.course, Node.body]
      apply Activity.during_course_value
      intro v s
      rw [Body.course_call_done Nat.one_pos]
      apply congrArg (fun args => (answer (.member v member args scope) s).within _ 0)
      apply Operand.map_node_tail
  | call name args scope =>
      rw [Node.course, Node.body, ← hopening, Body.course_call_done Nat.one_pos]
      apply congrArg (fun args => Course.during _ s.depth (answer (.function name args scope) s))
      apply Operand.map_node_all
  | binary op left right =>
      rw [Node.course, Node.body]
      apply Activity.during_course_value
      intro a s
      cases op.decidedBy? with
      | none =>
          apply Body.course_value Nat.one_pos
          intro b s
          apply Body.course_done
      | some deciding =>
          cases a.truth with
          | error e => apply Body.course_done
          | ok decided =>
              simp only
              split
              · apply Body.course_done
              · apply Body.course_value Nat.one_pos
                intro b s
                apply Body.course_done
  | negation operand =>
      rw [Node.course, Node.body]
      apply Activity.during_course_value
      intro v s
      apply Body.course_done
  | root children =>
      rw [Node.course, Node.body, ← hopening]
      apply congrArg (Course.during _ s.depth)
      apply (congrArg Course.outer (Body.course_concatenation Nat.one_pos _ "" s)).trans
      apply congrArg (fun nodes => Node.courseOfAll answer nodes "" s)
      apply Operand.map_node_all
  | block children scope =>
      rw [Node.course, Node.body, Body.course]
      apply congrArg (Course.during _ s.depth)
      have hinner : ((Activity.node (.block children scope)).opening s).fork 0
          = (((Activity.node (.block children scope)).opening s).fork 0).update 1 s :=
        ((((Activity.node (.block children scope)).opening s).fork 0).update_counted 1).symm
      rw [hinner]
      apply (congrArg Course.outer (Body.course_concatenation Nat.one_lt_two _ "" s)).trans
      apply congrArg (fun nodes => (Node.courseOfAll answer nodes "" s).inForkOf s)
      apply Operand.map_node_all
  | returning expression scope =>
      rw [Node.course, Node.body]
      apply Activity.during_course_value
      intro v s
      apply Body.course_done
  | terminating expression scope =>
      rw [Node.course, Node.body]
      apply Activity.during_course_value
      intro v s
      apply Body.course_done

/-- The evaluation of a node is the course of that activity. -/
theorem Node.course_eq_activity {answer : AnswerCourse} (limits : Limits) (n : Node)
    (s : Counted) :
  n.course answer s = (Activity.node n).course answer limits s
  := n.course_eq_body limits s

/-- A call that finds room is the course of that activity. -/
theorem Counted.calling_eq_activity {answer : AnswerCourse} (limits : Limits) (s : Counted)
    (callee : Call Node) (body : Body callee.args.length) :
  s.calling callee body (body.course answer limits callee.args.get)
    = (Activity.call callee body).course answer limits s
  := rfl

theorem Activity.events_course {answer : AnswerCourse} {limits : Limits} (a : Activity)
    (s : Counted) :
  (a.course answer limits s).events
    = .starts a
      :: ((a.body.course answer limits a.args.get (a.opening s)).events
        ++ [.ends a (a.course answer limits s).result])
  := Course.events_during a s.depth _

/-! ### Induction on activities -/

/-- `P` passes to nodes and `Q` to calls from all that happens inside of them. -/
structure Course.Inductive (limits : Limits) (P : Node → Counted → Course Counted → Prop)
    (Q : Call Node → Counted → Course Counted → Prop) : Prop where
  node : ∀ answer n s, (∀ callee s, Q callee s (answer callee s)) →
    (∀ child ∈ n.children, ∀ s, P child s (child.course answer s)) →
    P n s ((Activity.node n).course answer limits s)
  refused : ∀ callee s e, Q callee s (.still (.error e) s)
  call : ∀ answer callee body s, s.store.bodyOf callee = .ok body →
    (∀ callee s, Q callee s (answer callee s)) → (∀ n s, P n s (n.course answer s)) →
    Q callee s ((Activity.call callee body).course answer limits s)

namespace Course.Inductive

variable {limits : Limits} {P : Node → Counted → Course Counted → Prop}
  {Q : Call Node → Counted → Course Counted → Prop}

theorem of_answer (h : Course.Inductive limits P Q) {answer : AnswerCourse}
    (hanswer : ∀ callee s, Q callee s (answer callee s)) (n : Node) (s : Counted) :
  P n s (n.course answer s)
  := by
  induction n using Node.induction_on_children generalizing s with
  | h n ih =>
      rw [n.course_eq_activity limits]
      apply h.node answer n s hanswer ih

theorem answerCourse (h : Course.Inductive limits P Q) (budget : Nat) (callee : Call Node)
    (s : Counted) :
  Q callee s (answerCourse limits budget callee s)
  := by
  induction budget generalizing callee s with
  | zero =>
      rw [Stencil.answerCourse]
      cases s.store.bodyOf callee with
      | error e => apply h.refused
      | ok body => apply h.refused
  | succ budget ih =>
      rw [Stencil.answerCourse]
      cases hbody : s.store.bodyOf callee with
      | error e => apply h.refused
      | ok body =>
          simp only
          split
          · apply h.refused
          · rw [Counted.calling_eq_activity]
            apply h.call _ callee body s hbody ih (h.of_answer ih)

/-- What passes to nodes and calls holds of the evaluation of every node. -/
theorem course {c : Context} (h : Course.Inductive c.limits P Q) (n : Node) :
  P n c.counted (c.course n)
  := h.of_answer (h.answerCourse _) n c.counted

end Course.Inductive

end Stencil
