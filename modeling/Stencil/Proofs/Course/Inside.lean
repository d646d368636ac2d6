import Stencil.Proofs.Plain

/-!
# What holds inside every activity

What happens in a run is put together from what happens inside its activities.  So a property of
events that is kept when events are joined, and that passes to an activity from what happens inside
of it, holds of the events of every run (`PassesOn.course`).
-/

namespace Stencil

/-- `E` is kept when events are joined, and passes to activities from what happens inside. -/
structure PassesOn (E : List Event → Prop) : Prop where
  nil : E []
  point : ∀ e, e.isPoint = true → E [e]
  append : ∀ events others, E events → E others → E (events ++ others)
  activity : ∀ answer limits (a : Activity) s, (∀ callee s, E (answer callee s).events) →
    E (a.body.course answer limits a.args.get (a.opening s)).events →
    E (a.course answer limits s).events

section PassesOn

variable {E : List Event → Prop} {answer : AnswerCourse}

theorem Body.course_events (h : PassesOn E) (hanswer : ∀ callee s, E (answer callee s).events)
    (limits : Limits) {count : Nat} {args : Fin count → Node}
    (hargs : ∀ i s, E ((args i).course answer s).events) {body : Body count}
    (hown : body.Always (OwnTree fun n => ∀ s, E (n.course answer s).events))
    (a : CountedActivation) :
  E (body.course answer limits args a).events
  := by
  induction body using Body.induction_on_resume generalizing a with
  | done result => apply h.nil
  | inspect i next ih => apply ih _ hargs (hown.2 _)
  | evaluate context operand next ih =>
      have hoperand : ∀ s, E ((operand.node args).course answer s).events :=
        OwnTree.node hown.1 hargs
      rw [Body.course_evaluate, Course.events_after]
      apply h.append _ _ (hoperand _)
      apply ih _ hargs (OwnTree.resume hown.2 _)
  | call context callee next ih =>
      rw [Body.course_call, Course.events_after]
      apply h.append _ _ (hanswer _ _)
      apply ih _ hargs (OwnTree.resume hown.2 _)
  | read context name next ih =>
      rw [Body.course, Course.events_after]
      apply h.append _ _ (h.point _ rfl) (ih _ hargs (hown.2 _) _)
  | isGlobal name next ih => apply ih _ hargs (hown.2 _)
  | isLocal context name next ih => apply ih _ hargs (hown.2 _)
  | arity name next ih => apply ih _ hargs (hown.2 _)
  | bind context name v next ih =>
      rw [Body.course, Course.events_after]
      apply h.append _ _ (h.point _ rfl) (ih hargs hown.2 _)
  | define name v next ih =>
      rw [Body.course, Course.events_after]
      apply h.append _ _ (h.point _ rfl) (ih hargs hown.2 _)
  | register name accepted body next ih =>
      rw [Body.course, Course.events_after]
      apply h.append _ _ (h.point _ rfl) (ih _ hargs (hown.2 _) _)
  | fork context next ih => apply ih _ hargs (hown.2 _)
  | depth next ih => apply ih _ hargs (hown.2 _)
  | limits next ih => apply ih _ hargs (hown.2 _)

namespace PassesOn

theorem toInductive (h : PassesOn E) (limits : Limits) :
  Course.Inductive limits (fun _ _ c => E c.events) (fun _ _ c => E c.events)
  where
  node answer n s hanswer hchildren := by
    apply h.activity answer limits (.node n) s hanswer
    exact Body.course_events h hanswer limits (fun i => hchildren _ (List.get_mem _ i))
      (n.plain_body.ownTree _) _
  refused callee s e := h.nil
  call answer callee body s _ hanswer hnodes := by
    apply h.activity answer limits (.call callee body) s hanswer
    exact Body.course_events h hanswer limits (fun i => hnodes _)
      (Body.always_ownTree hnodes body) _

/-- `E` holds of all that happens inside an activity. -/
theorem inside (h : PassesOn E) (hanswer : ∀ callee s, E (answer callee s).events)
    (limits : Limits) (a : Activity) (s : Counted) :
  E (a.body.course answer limits a.args.get (a.opening s)).events
  := by
  have hnodes := (h.toInductive limits).of_answer hanswer
  exact Body.course_events h hanswer limits (fun i => hnodes _)
    (Body.always_ownTree (fun n s => hnodes n s) _) _

/-- `E` holds of the events of every run. -/
theorem course (h : PassesOn E) (c : Context) (n : Node) :
  E (c.course n).events
  := (h.toInductive c.limits).course n

end PassesOn

end PassesOn

/-- In every run, each activity that starts also ends, after all that has started inside of it. -/
theorem Nested.passesOn :
  PassesOn Nested
  where
  nil := .nil
  point e he := .point he .nil
  append events others h h' := h.append h'
  activity answer limits a s _ h := by
    rw [Activity.events_course]
    apply Nested.activity a _ h .nil

end Stencil
