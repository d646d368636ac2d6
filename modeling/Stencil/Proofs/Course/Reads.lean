import Stencil.Proofs.Plain

/-!
# Where variables are read

The evaluation of a reference reads the variable with its name, and nothing else.  Apart from that
variables are read only by the bodies of functions, while the call is the innermost activity in
progress.  So an event that tells of a read is either the one right after the start of a reference,
or it happens directly inside of a call (`Context.course_readsInPlace`).
-/

namespace Stencil

/-- The variable with the name may be read directly inside of the activity. -/
def Activity.MayRead (a : Activity) (name : String) : Prop :=
  a = .node (.reference name) ∨ a.isCall = true

/-- A read is in place if the innermost pending activity may do it, and the start of a reference is
if its read comes next, and then its end. -/
def Event.InPlace (pending : List Activity) (rest : List Event) : Event → Prop
  | reads name => ∃ a ∈ pending.head?, a.MayRead name
  | starts (.node (.reference name)) =>
      ∃ result more, rest = reads name :: ends (.node (.reference name)) result :: more
  | _ => True

/-- All reads are in place, where some activities are pending before the events. -/
def ReadsInPlace (pending : List Activity) : List Event → Prop
  | [] => True
  | e :: rest => e.InPlace pending rest ∧ ReadsInPlace (e.pendingAfter pending) rest

theorem Event.InPlace.append {pending : List Activity} {rest : List Event} {e : Event}
    (h : e.InPlace pending rest) (others : List Event) :
  e.InPlace pending (rest ++ others)
  := by
  unfold InPlace at h ⊢
  split
  · exact h
  · obtain ⟨result, more, rfl⟩ := h
    exact ⟨result, more ++ others, rfl⟩
  · trivial

namespace ReadsInPlace

variable {pending : List Activity} {events others before after : List Event} {name : String}

theorem append (h : ReadsInPlace pending events)
    (h' : ReadsInPlace (events.foldl Event.pendingAfter pending) others) :
  ReadsInPlace pending (events ++ others)
  := by
  induction events generalizing pending with
  | nil => exact h'
  | cons e rest ih => exact ⟨h.1.append others, ih h.2 h'⟩

theorem of_append (h : ReadsInPlace pending (before ++ after)) :
  ReadsInPlace (before.foldl Event.pendingAfter pending) after
  := by
  induction before generalizing pending with
  | nil => exact h
  | cons e rest ih => exact ih h.2

theorem exists_of_reads (h : ReadsInPlace [] (before ++ .reads name :: after)) :
  ∃ a, (Stencil.pending before).head? = some a ∧ a.MayRead name
  := h.of_append.1

theorem exists_of_starts
    (h : ReadsInPlace [] (before ++ .starts (.node (.reference name)) :: after)) :
  ∃ result rest, after = .reads name :: .ends (.node (.reference name)) result :: rest
  := h.of_append.1

end ReadsInPlace

/-! ### Inside an activity -/

/-- Whatever is pending, the events are nested and their reads in place. -/
structure Course.Placed {σ : Type} (c : Course σ) : Prop where
  nested : Nested c.events
  reads : ∀ pending, ReadsInPlace pending c.events

/-- Whatever else is pending, the events are nested and their reads in place inside of the
activity. -/
structure Course.PlacedIn {σ : Type} (a : Activity) (c : Course σ) : Prop where
  nested : Nested c.events
  reads : ∀ pending, ReadsInPlace (a :: pending) c.events

theorem Course.placed_still {σ : Type} (result : Result) (state : σ) :
  (still result state).Placed
  := ⟨.nil, fun _ => trivial⟩

namespace Course.PlacedIn

variable {σ : Type} {a : Activity} {c : Course σ}

theorem still (result : Result) (state : σ) :
  (Course.still result state).PlacedIn a
  := ⟨.nil, fun _ => trivial⟩

theorem after (h : c.PlacedIn a) {c' : Course Counted} (h' : c'.Placed) :
  (c.after c'.trace).PlacedIn a
  where
  nested := by
    rw [events_after]
    apply h'.nested.append h.nested
  reads pending := by
    rw [events_after]
    apply (h'.reads _).append
    rw [h'.nested.foldl_pendingAfter]
    apply h.reads

theorem after_point (h : c.PlacedIn a) {e : Event} (he : e.isPoint = true)
    (hplace : ∀ pending rest, e.InPlace (a :: pending) rest) (depth : Size) :
  (c.after [⟨e, depth⟩]).PlacedIn a
  where
  nested := by
    rw [events_after]
    apply Nested.point he h.nested
  reads pending := by
    rw [events_after]
    refine ⟨hplace pending _, ?_⟩
    rw [Event.pendingAfter_of_isPoint he]
    apply h.reads

end Course.PlacedIn

/-- If the body reads a variable next, then the activity may do so. -/
def Body.ReadsIn (a : Activity) {count : Nat} : Body count → Prop
  | .read _ name _ => a.MayRead name
  | _ => True

/-- A node reads a variable only if it is the reference to it. -/
theorem Node.readsIn_body (n : Node) :
  n.body.Always (Body.ReadsIn (.node n))
  := by
  have hvalue : ∀ {count context : Nat} {operand : Operand count} {next : Value → Body count},
      (∀ v, (next v).Always (Body.ReadsIn (.node n))) →
        (Body.value context operand next).Always (Body.ReadsIn (.node n)) :=
    Body.always_value trivial fun _ => trivial
  cases n with
  | literal v => trivial
  | reference name => exact ⟨.inl rfl, fun _ => trivial⟩
  | assignment name expression =>
      refine ⟨trivial, fun isGlobal => ?_⟩
      simp only
      split
      · trivial
      · exact hvalue fun v => ⟨trivial, trivial⟩
  | dot receiver member args scope => exact hvalue fun v => ⟨trivial, fun _ => trivial⟩
  | call name args scope => exact ⟨trivial, fun _ => trivial⟩
  | binary op left right =>
      apply hvalue
      intro v
      have hright : ∀ next : Value → Result,
          (Body.value 0 (.arg ⟨1, Nat.one_lt_two⟩) fun b => .done (next b)).Always
            (Body.ReadsIn (.node (.binary op left right))) :=
        fun next => hvalue fun b => trivial
      cases op.decidedBy? with
      | none => apply hright
      | some deciding =>
          cases v.truth with
          | error e => trivial
          | ok decided =>
              simp only
              split
              · trivial
              · apply hright
  | negation operand => exact hvalue fun v => trivial
  | root children => exact Body.always_concatenation (fun _ _ => trivial) (fun _ => trivial) _ _
  | block children scope =>
      refine ⟨trivial, fun inner => ?_⟩
      exact Body.always_concatenation (fun _ _ => trivial) (fun _ => trivial) _ _
  | returning expression scope => exact hvalue fun v => trivial
  | terminating expression scope => exact hvalue fun v => trivial

section Placed

variable {answer : AnswerCourse} {limits : Limits}

/-- Reads are in place inside of an activity that may do those of its body. -/
theorem Body.course_placedIn {a : Activity} (hanswer : ∀ callee s, (answer callee s).Placed)
    {count : Nat} {args : Fin count → Node} (hargs : ∀ i s, ((args i).course answer s).Placed)
    {body : Body count} (hreads : body.Always (ReadsIn a))
    (hown : body.Always (OwnTree fun n => ∀ s, (n.course answer s).Placed))
    (s : CountedActivation) :
  (body.course answer limits args s).PlacedIn a
  := by
  induction body using Body.induction_on_resume generalizing s with
  | done result => apply Course.PlacedIn.still
  | inspect i next ih => apply ih _ hargs (hreads.2 _) (hown.2 _)
  | evaluate context operand next ih =>
      have hoperand : ∀ s, ((operand.node args).course answer s).Placed :=
        OwnTree.node hown.1 hargs
      rw [course_evaluate]
      apply Course.PlacedIn.after _ (hoperand _)
      exact ih _ hargs (Always.resume hreads.2 (fun _ => trivial) _)
        (OwnTree.resume hown.2 _) _
  | call context callee next ih =>
      rw [course_call]
      apply Course.PlacedIn.after _ (hanswer _ _)
      exact ih _ hargs (Always.resume hreads.2 (fun _ => trivial) _)
        (OwnTree.resume hown.2 _) _
  | read context name next ih =>
      apply (ih _ hargs (hreads.2 _) (hown.2 _) _).after_point rfl
      exact fun _ _ => ⟨a, rfl, hreads.1⟩
  | isGlobal name next ih => apply ih _ hargs (hreads.2 _) (hown.2 _)
  | isLocal context name next ih => apply ih _ hargs (hreads.2 _) (hown.2 _)
  | arity name next ih => apply ih _ hargs (hreads.2 _) (hown.2 _)
  | bind context name v next ih =>
      apply (ih hargs hreads.2 hown.2 _).after_point (e := .binds name) rfl fun _ _ => trivial
  | define name v next ih =>
      apply (ih hargs hreads.2 hown.2 _).after_point (e := .defines name) rfl fun _ _ => trivial
  | register name accepted body next ih =>
      apply (ih _ hargs (hreads.2 _) (hown.2 _) _).after_point (e := .registers name) rfl
      exact fun _ _ => trivial
  | fork context next ih => apply ih _ hargs (hreads.2 _) (hown.2 _)
  | depth next ih => apply ih _ hargs (hreads.2 _) (hown.2 _)
  | limits next ih => apply ih _ hargs (hreads.2 _) (hown.2 _)

/-- Reads are in place in an activity if they are inside. -/
theorem Activity.course_placed (a : Activity) (s : Counted)
    (h : (a.body.course answer limits a.args.get (a.opening s)).PlacedIn a) :
  (a.course answer limits s).Placed
  where
  nested := by
    rw [Activity.events_course]
    apply Nested.activity a _ h.nested .nil
  reads pending := by
    rw [Activity.events_course]
    constructor
    · match a with
      | .node (.reference name) => exact ⟨_, [], rfl⟩
      | .node (.literal _) | .node (.assignment _ _) | .node (.dot _ _ _ _) | .node (.call _ _ _)
      | .node (.binary _ _ _) | .node (.negation _) | .node (.root _) | .node (.block _ _)
      | .node (.returning _ _) | .node (.terminating _ _) | .call _ _ => trivial
    · apply (h.reads pending).append
      exact ⟨trivial, trivial⟩

/-- Reads are in place in the evaluation of nodes and in calls. -/
theorem Course.placed_inductive (limits : Limits) :
  Course.Inductive limits (fun _ _ c => c.Placed) (fun _ _ c => c.Placed)
  where
  node answer n s hanswer hchildren := by
    apply Activity.course_placed
    apply Body.course_placedIn hanswer _ n.readsIn_body (n.plain_body.ownTree _)
    intro i
    apply hchildren _ (List.get_mem _ i)
  refused callee s e := placed_still _ _
  call answer callee body s _ hanswer hnodes := by
    apply Activity.course_placed
    have hreads : body.Always (Body.ReadsIn (.call callee body)) := by
      apply Body.always_of_forall
      intro count body
      unfold Body.ReadsIn
      split
      · exact .inr rfl
      · trivial
    exact Body.course_placedIn hanswer (fun i => hnodes _) hreads
      (Body.always_ownTree hnodes body) _

end Placed

namespace Context

/-- In the evaluation of a node, reads are in place. -/
theorem course_readsInPlace (c : Context) (n : Node) :
  ReadsInPlace [] (c.course n).events
  := ((Course.placed_inductive c.limits).course n).reads []

/-- In a call, reads are in place. -/
theorem callCourse_readsInPlace (c : Context) (callee : Call Node) :
  ReadsInPlace [] (c.callCourse callee).events
  := ((Course.placed_inductive c.limits).answerCourse _ callee c.counted).reads []

end Context

end Stencil
