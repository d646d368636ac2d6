import Stencil.Context.Basic

/-!
# Events of a run

The course of a run is the list of its events in order: activities start and end, variables
are read and bound, functions are registered.  An activity is the evaluation of a node or a
call whose body runs.  `pending` lists the activities that are in progress after some
events, innermost first, so that the activities enclosing an event can be read off what
happened before it.

In a `Nested` list of events every activity that starts also ends, and what happens in
between is nested in turn.  Whatever is pending around a nested list is pending after it
again (`Nested.foldl_pendingAfter`), and an activity that ends is the innermost one pending
(`pending_ends`).
-/

namespace Stencil

/-- Whether what encloses an activity with this result stops as well: an error does as much
as an outcome that blocks. -/
def Result.blocks : Result → Bool
  | .ok outcome => outcome.blocks
  | .error _ => true

theorem Result.proceeds_or_blocks (r : Result) :
  (∃ v, r = proceed v) ∨ Result.blocks r = true
  := by
  match r with
  | .ok (.proceed v) => exact .inl ⟨v, rfl⟩
  | .ok (.returning v s) => exact .inr rfl
  | .ok (.terminating v s) => exact .inr rfl
  | .error e => exact .inr rfl

/-- Something that takes its time in a run. -/
inductive Activity where
  /-- The evaluation of a node. -/
  | node (n : Node)
  /-- A call of a function or of a member, which runs a body. -/
  | call (callee : Call Node) (body : Body callee.args.length)

namespace Activity

/-- Whether the activity is a call. -/
def isCall : Activity → Bool
  | node _ => false
  | call _ _ => true

/-- What an activity makes of the result that is reached inside it: a block takes a return
that is aimed at it, and everything else hands the result on. -/
def conclude : Activity → Result → Result
  | node (.block _ scope), result => result.map (Outcome.leaveBlock scope)
  | _, result => result

end Activity

/-- Something that happens in a run. -/
inductive Event where
  | starts (a : Activity)
  | ends (a : Activity) (result : Result)
  /-- A variable is read. -/
  | reads (name : String)
  /-- A name is bound locally. -/
  | binds (name : String)
  /-- A name is bound globally. -/
  | defines (name : String)
  /-- A function is registered, or refused because there is one of that name. -/
  | registers (name : String)

namespace Event

/-- The pending activities after an event. -/
def pendingAfter (pending : List Activity) : Event → List Activity
  | starts a => a :: pending
  | ends _ _ => pending.tail
  | _ => pending

/-- Whether the event neither starts nor ends an activity. -/
def isPoint : Event → Bool
  | starts _ => false
  | ends _ _ => false
  | _ => true

theorem pendingAfter_of_isPoint {e : Event} (h : e.isPoint = true) (pending : List Activity) :
  pendingAfter pending e = pending
  := by
  cases e with
  | starts a => contradiction
  | ends a r => contradiction
  | _ => rfl

end Event

/-- The activities that are in progress after events, innermost first. -/
def pending (events : List Event) : List Activity := events.foldl Event.pendingAfter []

/-! ### Nesting -/

/-- Every activity that starts also ends, and its end comes after the ends of all that
started inside it. -/
inductive Nested : List Event → Prop where
  | nil : Nested []
  | point {e : Event} {rest : List Event} (h : e.isPoint = true) (hrest : Nested rest) :
      Nested (e :: rest)
  | activity (a : Activity) (result : Result) {inner rest : List Event}
      (hinner : Nested inner) (hrest : Nested rest) :
      Nested (.starts a :: (inner ++ .ends a result :: rest))

namespace Nested

theorem append {events others : List Event} (h : Nested events) (h' : Nested others) :
  Nested (events ++ others)
  := by
  induction h with
  | nil => apply h'
  | point he _ ih => apply point he ih
  | activity a result hinner _ _ ih =>
      rw [List.cons_append, List.append_assoc, List.cons_append]
      apply activity a result hinner ih

/-- After nested events the same activities are pending as before. -/
theorem foldl_pendingAfter {events : List Event} (h : Nested events)
    (around : List Activity) :
  events.foldl Event.pendingAfter around = around
  := by
  induction h generalizing around with
  | nil => rfl
  | point he _ ih => rw [List.foldl_cons, Event.pendingAfter_of_isPoint he, ih]
  | activity a result _ _ ihinner ih =>
      rw [List.foldl_cons, List.foldl_append, ihinner, List.foldl_cons, ih]
      rfl

/-- In the middle of nested events, the activities that were pending before them come after
those that have started since. -/
theorem foldl_pendingAfter_prefix {before after : List Event} (h : Nested (before ++ after))
    (around : List Activity) :
  before.foldl Event.pendingAfter around = pending before ++ around
  := by
  obtain ⟨events, hsplit⟩ : ∃ events, before ++ after = events := ⟨_, rfl⟩
  rw [hsplit] at h
  induction h generalizing before after around with
  | nil =>
      obtain ⟨rfl, -⟩ := List.append_eq_nil_iff.mp hsplit
      rfl
  | @point e rest he _ ih =>
      cases before with
      | nil => rfl
      | cons e' before =>
          obtain ⟨rfl, hrest⟩ := List.cons.inj hsplit
          rw [pending, List.foldl_cons, List.foldl_cons, Event.pendingAfter_of_isPoint he,
            Event.pendingAfter_of_isPoint he]
          apply ih _ hrest
  | @activity a result inner rest hinner _ ihinner ih =>
      cases before with
      | nil => rfl
      | cons e before =>
          obtain ⟨rfl, hrest⟩ := List.cons.inj hsplit
          rw [pending, List.foldl_cons, List.foldl_cons]
          rcases List.append_eq_append_iff.mp hrest with ⟨part, rfl, -⟩ | ⟨part, rfl, hpart⟩
          · rw [ihinner _ rfl, ihinner _ rfl]
            simp [Event.pendingAfter]
          · cases part with
            | nil =>
                rw [List.append_nil, hinner.foldl_pendingAfter, hinner.foldl_pendingAfter]
                rfl
            | cons e part =>
                obtain ⟨rfl, hmore⟩ := List.cons.inj hpart
                rw [List.foldl_append, List.foldl_append, hinner.foldl_pendingAfter,
                  hinner.foldl_pendingAfter, List.foldl_cons, List.foldl_cons]
                apply ih _ hmore.symm

end Nested

/-! ### Pending activities -/

theorem pending_point {e : Event} (h : e.isPoint = true) (before : List Event) :
  pending (e :: before) = pending before
  := by rw [pending, List.foldl_cons, Event.pendingAfter_of_isPoint h, pending]

/-- Inside an activity, it is the outermost one pending. -/
theorem pending_inside {before after : List Event} (h : Nested (before ++ after))
    (a : Activity) :
  pending (.starts a :: before) = pending before ++ [a]
  := h.foldl_pendingAfter_prefix [a]

/-- When all has happened that happens inside an activity, it is the only one pending. -/
theorem pending_within {inner : List Event} (h : Nested inner) (a : Activity) :
  pending (.starts a :: inner) = [a]
  := h.foldl_pendingAfter [a]

/-- When an activity has ended, it is not pending any more. -/
theorem pending_behind {inner : List Event} (h : Nested inner) (a : Activity)
    (result : Result) (before : List Event) :
  pending (.starts a :: (inner ++ .ends a result :: before)) = pending before
  := by
  rw [pending, List.foldl_cons, List.foldl_append, List.foldl_cons, h.foldl_pendingAfter]
  rfl

/-- Where something stands that happens from the start of an activity on: it is the start,
it happens inside, it is the end, or it comes afterwards. -/
theorem eq_or_inside_or_behind {α : Type} {first last m : α} {inner rest before after : List α}
    (h : first :: (inner ++ last :: rest) = before ++ m :: after) :
  (before = [] ∧ m = first ∧ after = inner ++ last :: rest)
    ∨ (∃ before' after', before = first :: before' ∧ inner = before' ++ m :: after'
        ∧ after = after' ++ last :: rest)
    ∨ (before = first :: inner ∧ m = last ∧ after = rest)
    ∨ ∃ before', before = first :: (inner ++ last :: before') ∧ rest = before' ++ m :: after
  := by
  cases before with
  | nil =>
      obtain ⟨rfl, rfl⟩ := List.cons.inj h
      exact .inl ⟨rfl, rfl, rfl⟩
  | cons e before =>
      obtain ⟨rfl, hrest⟩ := List.cons.inj h
      rcases List.append_eq_append_iff.mp hrest with ⟨part, rfl, hpart⟩ | ⟨part, rfl, hpart⟩
      · cases part with
        | nil =>
            obtain ⟨rfl, rfl⟩ := List.cons.inj hpart
            exact .inr (.inr (.inl ⟨by rw [List.append_nil], rfl, rfl⟩))
        | cons e part =>
            obtain ⟨rfl, rfl⟩ := List.cons.inj hpart
            exact .inr (.inr (.inr ⟨part, rfl, rfl⟩))
      · cases part with
        | nil =>
            obtain ⟨rfl, rfl⟩ := List.cons.inj hpart
            exact .inr (.inr (.inl ⟨by rw [List.append_nil], rfl, rfl⟩))
        | cons e part =>
            obtain ⟨rfl, rfl⟩ := List.cons.inj hpart
            exact .inr (.inl ⟨before, part, rfl, rfl, rfl⟩)

/-- What ends is the innermost pending activity. -/
theorem pending_ends {before after : List Event} {a : Activity} {result : Result}
    (h : Nested (before ++ .ends a result :: after)) :
  ∃ enclosing, pending before = a :: enclosing
  := by
  obtain ⟨events, hsplit⟩ : ∃ events, events = before ++ .ends a result :: after := ⟨_, rfl⟩
  rw [← hsplit] at h
  induction h generalizing before after with
  | nil => simp at hsplit
  | @point e rest he _ ih =>
      cases before with
      | nil =>
          obtain ⟨rfl, -⟩ := List.cons.inj hsplit
          contradiction
      | cons e' before =>
          obtain ⟨rfl, hrest⟩ := List.cons.inj hsplit
          rw [pending_point he]
          apply ih hrest
  | @activity b reached inner rest hinner _ ihinner ih =>
      rcases eq_or_inside_or_behind hsplit with
        ⟨-, hstarts, -⟩ | ⟨before, after, rfl, rfl, -⟩ | ⟨rfl, hends, -⟩ | ⟨before, rfl, hrest⟩
      · cases hstarts
      · obtain ⟨enclosing, hpending⟩ := ihinner rfl
        refine ⟨enclosing ++ [b], ?_⟩
        rw [pending_inside hinner, hpending, List.cons_append]
      · obtain ⟨rfl, -⟩ := Event.ends.inj hends
        refine ⟨[], ?_⟩
        rw [pending_within hinner]
      · rw [pending_behind hinner]
        apply ih hrest

end Stencil
