import Stencil.Proofs.Course.Agreement
import Stencil.Proofs.Course.Collected

/-!
# Accesses in a run

The accesses that happen when a node is evaluated in a context are `Context.accesses`, and those of
a call are `Context.callAccesses`.  They are the events of the run that neither start nor end an
activity, with what the events do not say.  The log leads from the context to what the run leaves
behind (`Context.carries_evaluate`, `Context.carries_call`): in between, nothing but the accesses
changes the store, whatever contexts the blocks and the bodies of functions have forked.
-/

namespace Stencil

/-! ### Logs of nodes and calls -/

/-- The accesses that happen when calls are answered. -/
abbrev AnswerAccesses := Call Node → Counted → List Access

/-- A body contributes its accesses and those of its operands and calls. -/
def recorder (calls : AnswerAccesses) {count : Nat} (args : Fin count → Node)
    (operand : Operand count → Counted → List Access) : Collector Access count where
  operand := operand
  call callee s := calls (callee.map (Operand.node args)) s
  access a := [a]

/-- The accesses that happen when a node is evaluated. -/
def Node.accesses (answer : AnswerCourse) (limits : Limits) (calls : AnswerAccesses) (n : Node)
    (s : Counted) : List Access :=
  n.body.collected answer limits n.children.get
    (recorder calls n.children.get
      (Operand.onArgs fun i s => (n.children.get i).accesses answer limits calls s))
    ((Activity.node n).opening s)
termination_by n.size
decreasing_by exact Node.size_lt_of_mem_children (List.get_mem _ i)

/-- What the body of a node contributes. -/
def Node.recorder (answer : AnswerCourse) (limits : Limits) (calls : AnswerAccesses) (n : Node) :
    Collector Access n.children.length :=
  Stencil.recorder calls n.children.get
    (Operand.onArgs fun i s => (n.children.get i).accesses answer limits calls s)

theorem Node.accesses_eq (answer : AnswerCourse) (limits : Limits) (calls : AnswerAccesses)
    (n : Node) (s : Counted) :
  n.accesses answer limits calls s
    = n.body.collected answer limits n.children.get (n.recorder answer limits calls)
      ((Activity.node n).opening s)
  := by
  rw [accesses]
  rfl

/-- What the body of a call contributes. -/
def Call.recorder (answer : AnswerCourse) (limits : Limits) (calls : AnswerAccesses)
    (callee : Call Node) : Collector Access callee.args.length :=
  Stencil.recorder calls callee.args.get fun operand =>
    (operand.node callee.args.get).accesses answer limits calls

/-- The accesses that happen when a call is answered. -/
def answerAccesses (limits : Limits) : (budget : Nat) → AnswerAccesses
  | 0, _, _ => []
  | budget + 1, callee, s =>
      match s.store.bodyOf callee with
      | .error _ => []
      | .ok body =>
          if limits.maxCallDepth ≤ s.depth then []
          else
            body.collected (answerCourse limits budget) limits callee.args.get
              (callee.recorder (answerCourse limits budget) limits (answerAccesses limits budget))
              s.opening

namespace Context

/-- The accesses that happen when calls from the context are answered. -/
def answerAccesses (c : Context) : AnswerAccesses :=
  Stencil.answerAccesses c.limits (c.limits.maxCallDepth.toNat - c.depth)

/-- The accesses that happen when a node is evaluated. -/
def accesses (c : Context) (n : Node) : List Access :=
  n.accesses c.answerCourse c.limits c.answerAccesses c.counted

/-- The accesses that happen in a call. -/
def callAccesses (c : Context) (callee : Call Node) : List Access :=
  c.answerAccesses callee c.counted

end Context

/-! ### Logs of the contexts of a body -/

/-- Every computed variable has a counter, and the names in all contexts stand for them or for
constants. -/
structure Activation.Sound (known : List (Nat → Value)) (a : Activation) : Prop where
  store : a.store.Sound known
  locals : ∀ t ∈ a.locals, t.From known

/-- The log leads from the contexts of a body to contexts afterwards. -/
abbrev Activation.Carries : Activation → List Access → Activation → Prop :=
  Stencil.Carries Activation.Sound Activation.store

namespace Activation

variable {a : Activation} {context : Nat} {known : List (Nat → Value)} {log : List Access}
  {e : Environment}

theorem Sound.environment (h : a.Sound known) (context : Nat) :
  (a.environment context).Sound known
  := by
  constructor
  · apply h.store
  · rw [Activation.environment, List.getD_eq_getElem?_getD]
    cases hlocals : a.locals[context]? with
    | none => apply Table.From.empty
    | some t => apply h.locals t (List.mem_of_getElem? hlocals)

/-- What happens in one context, seen from all of them. -/
theorem carries_update (h : (a.environment context).Carries log e) :
  a.Carries log (a.update context e)
  := by
  intro known ha
  obtain ⟨hleads, he⟩ := h known (ha.environment context)
  refine ⟨hleads, he.store, ?_⟩
  intro t ht
  rcases List.mem_or_eq_of_mem_set ht with hold | rfl
  · apply (ha.locals t hold).append
  · apply he.locals

/-- What happens in one context to the store alone, seen from all of them. -/
theorem carries_withStore (h : (a.environment context).Carries log e) :
  a.Carries log { a with store := e.store }
  := by
  intro known ha
  obtain ⟨hleads, he⟩ := h known (ha.environment context)
  exact ⟨hleads, he.store, fun t ht => (ha.locals t ht).append _⟩

theorem carries_fork (a : Activation) (context : Nat) :
  a.Carries [] (a.fork context)
  := by
  have hstore : (a.fork context).store = a.store := rfl
  apply Carries.nil hstore
  intro known ha
  refine ⟨ha.store, ?_⟩
  intro t ht
  rcases List.mem_append.mp ht with hold | hnew
  · apply ha.locals t hold
  · obtain rfl := List.mem_singleton.mp hnew
    apply (ha.environment context).locals

end Activation

/-! ### What is recorded -/

/-- The accesses are those that the events of the course tell of, and lead from the state to the one
that the course leaves behind. -/
structure Course.Recorded (log : List Access) (s : Counted) (c : Course Counted) : Prop where
  events : c.Accounts (Option.guard Event.isPoint) Access.event log
  carries : s.toEnvironment.Carries log c.state.toEnvironment

/-- If nothing happens, then there are no accesses. -/
theorem Course.Recorded.still (result : Result) (s : Counted) :
  (Course.still result s).Recorded [] s
  where
  events := rfl
  carries := Carries.nil rfl fun _ => id

section Recorded

variable {answer : AnswerCourse} {limits : Limits} {calls : AnswerAccesses}

/-- What arguments and calls contribute is what is recorded of them. -/
structure Collector.Records (answer : AnswerCourse) {count : Nat} (args : Fin count → Node)
    (k : Collector Access count) : Prop where
  arg : ∀ i s, ((args i).course answer s).Recorded (k.operand (.arg i) s) s
  call : ∀ callee s,
    (answer (callee.map (Operand.node args)) s).Recorded (k.call callee s) s
  access : ∀ a, k.access a = [a]

theorem Collector.Records.accounts {count : Nat} {args : Fin count → Node}
    {k : Collector Access count} (h : k.Records answer args) :
  k.Accounts (Option.guard Event.isPoint) Access.event answer args
  where
  arg i s := (h.arg i s).events
  call callee s := (h.call callee s).events
  access a := by
    rw [h.access]
    obtain ⟨e, deed⟩ := a
    cases deed <;> rfl

/-- What is collected along a body leads from its contexts to those afterwards. -/
theorem Body.course_carries {count : Nat} {args : Fin count → Node} {k : Collector Access count}
    (hk : k.Records answer args) {body : Body count}
    (hown : body.Always
      (OwnTree fun n => ∀ s, (n.course answer s).Recorded (k.operand (.tree n) s) s))
    (a : CountedActivation) :
  a.toActivation.Carries (body.collected answer limits args k a)
    (body.course answer limits args a).state.toActivation
  := by
  induction body using Body.induction_on_resume generalizing a with
  | done result => apply Carries.nil rfl fun _ => id
  | inspect i next ih => apply ih _ hk (hown.2 _)
  | evaluate context operand next ih =>
      have hoperand : ∀ s,
          ((operand.node args).course answer s).Recorded (k.operand operand s) s := by
        cases operand with
        | arg i => apply hk.arg
        | tree n => apply hown.1
      let c := (operand.node args).course answer (a.counted context)
      have hhere := Activation.carries_update (hoperand (a.counted context)).carries
      rw [collected_evaluate, course_evaluate]
      exact hhere.append (ih c.result hk (OwnTree.resume hown.2 _) (a.update context c.state))
  | call context callee next ih =>
      let c := answer (callee.map (Operand.node args)) (a.counted context)
      have hhere := Activation.carries_update (hk.call callee (a.counted context)).carries
      rw [collected_call, course_call]
      exact hhere.append (ih c.result hk (OwnTree.resume hown.2 _) (a.update context c.state))
  | read context name next ih =>
      let r := (a.environment context).read name
      have hhere := Activation.carries_update (Access.carries ⟨a.environment context, .read name⟩)
      rw [collected, hk.access]
      exact hhere.append (ih r.1 hk (hown.2 _) (a.update context ⟨r.2, a.depths context⟩))
  | isGlobal name next ih => apply ih _ hk (hown.2 _)
  | isLocal context name next ih => apply ih _ hk (hown.2 _)
  | arity name next ih => apply ih _ hk (hown.2 _)
  | bind context name v next ih =>
      let e := (a.environment context).bind name v
      have hhere := Activation.carries_update (Access.carries ⟨a.environment context, .bind name v⟩)
      rw [collected, hk.access]
      exact hhere.append (ih hk hown.2 (a.update context ⟨e, a.depths context⟩))
  | define name v next ih =>
      have hhere := Activation.carries_withStore (Access.carries ⟨a.environment 0, .define name v⟩)
      rw [collected, hk.access]
      exact hhere.append (ih hk hown.2 (a.withStore (a.store.define name v)))
  | register name accepted body next ih =>
      let r := a.store.register name ⟨accepted, body⟩
      have hhere := Activation.carries_withStore
        (Access.carries ⟨a.environment 0, .register name ⟨accepted, body⟩⟩)
      rw [collected]
      simp only [hk.access]
      exact hhere.append (ih r.1 hk (hown.2 _) (a.withStore r.2))
  | fork context next ih =>
      have hhere := a.toActivation.carries_fork context
      exact hhere.append (ih _ hk (hown.2 _) (a.fork context))
  | depth next ih => apply ih _ hk (hown.2 _)
  | limits next ih => apply ih _ hk (hown.2 _)

/-- What is collected along the body of an activity is what is recorded of the activity. -/
theorem Activity.course_recorded (a : Activity) {k : Collector Access a.args.length}
    (hk : k.Records answer a.args.get)
    (hown : a.body.Always
      (Body.OwnTree fun n => ∀ s, (n.course answer s).Recorded (k.operand (.tree n) s) s))
    (s : Counted) :
  (a.course answer limits s).Recorded
    (a.body.collected answer limits a.args.get k (a.opening s)) s
  where
  events := by
    have hinside := Body.course_accounts limits hk.accounts
      (hown.mono fun h => h.mono fun n hn s => (hn s).events) (a.opening s)
    rw [Course.Accounts, Activity.filterMap_events_course fun _ _ => rfl]
    exact hinside
  carries := by
    intro known hs
    have hopening : (a.opening s).toActivation.Sound known := by
      refine ⟨hs.store, fun t ht => ?_⟩
      obtain rfl := List.mem_singleton.mp ht
      exact hs.locals
    obtain ⟨hleads, hafter⟩ := Body.course_carries hk hown (a.opening s) known hopening
    exact ⟨hleads, hafter.environment 0⟩

/-- What is recorded of a node, if it is of calls. -/
theorem Node.course_recorded
    (hcalls : ∀ callee s, (answer callee s).Recorded (calls callee s) s) (limits : Limits)
    (n : Node) (s : Counted) :
  (n.course answer s).Recorded (n.accesses answer limits calls s) s
  := by
  induction n using Node.induction_on_children generalizing s with
  | h n ih =>
      have hrecorder : (n.recorder answer limits calls).Records answer n.children.get :=
        ⟨fun i s => ih _ (List.get_mem _ i) s, fun _ _ => hcalls _ _, fun _ => rfl⟩
      rw [n.course_eq_activity limits, n.accesses_eq]
      apply (Activity.node n).course_recorded hrecorder (n.plain_body.ownTree _)

/-- What is recorded of calls. -/
theorem answerCourse_recorded (limits : Limits) (budget : Nat) (callee : Call Node) (s : Counted) :
  (answerCourse limits budget callee s).Recorded (answerAccesses limits budget callee s) s
  := by
  induction budget generalizing callee s with
  | zero =>
      rw [answerCourse, answerAccesses]
      cases s.store.bodyOf callee with
      | error e => apply Course.Recorded.still
      | ok body => apply Course.Recorded.still
  | succ budget ih =>
      rw [answerCourse, answerAccesses]
      cases s.store.bodyOf callee with
      | error e => apply Course.Recorded.still
      | ok body =>
          simp only
          split
          · apply Course.Recorded.still
          · have hnodes := Node.course_recorded ih limits
            have hrecorder : (callee.recorder (answerCourse limits budget) limits
                (answerAccesses limits budget)).Records (answerCourse limits budget)
                callee.args.get :=
              ⟨fun i => hnodes _, fun _ _ => ih _ _, fun _ => rfl⟩
            rw [Counted.calling_eq_activity]
            apply (Activity.call callee body).course_recorded hrecorder
            apply Body.always_ownTree hnodes

end Recorded

namespace Context

/-- What is recorded of the evaluation of a node. -/
theorem course_recorded (c : Context) (n : Node) :
  (c.course n).Recorded (c.accesses n) c.counted
  := Node.course_recorded (answerCourse_recorded c.limits _) c.limits n c.counted

/-- The accesses in the evaluation of a node are the events that neither start nor end anything. -/
theorem events_accesses (c : Context) (n : Node) :
  (c.accesses n).map Access.event = (c.course n).events.filter Event.isPoint
  := by
  rw [← List.filterMap_eq_filter]
  apply (c.course_recorded n).events.symm

/-- The accesses in a call are the events that neither start nor end anything. -/
theorem events_callAccesses (c : Context) (callee : Call Node) :
  (c.callAccesses callee).map Access.event = (c.callCourse callee).events.filter Event.isPoint
  := by
  rw [← List.filterMap_eq_filter]
  apply (answerCourse_recorded c.limits _ callee c.counted).events.symm

/-- The accesses in the evaluation of a node lead to the context afterwards. -/
theorem carries_evaluate (c : Context) (n : Node) :
  c.environment.Carries (c.accesses n) (c.evaluate n).2.environment
  := by
  rw [c.evaluate_eq_course]
  apply (c.course_recorded n).carries

/-- The accesses in a call lead to the context afterwards. -/
theorem carries_call (c : Context) (callee : Call Node) :
  c.environment.Carries (c.callAccesses callee) (c.call callee).2.environment
  := by
  rw [c.call_eq_course]
  exact (answerCourse_recorded c.limits _ callee c.counted).carries

end Context

end Stencil
