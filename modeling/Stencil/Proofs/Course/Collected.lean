import Stencil.Proofs.Access.Basic
import Stencil.Proofs.Course.Activity
import Stencil.Proofs.Plain

/-!
# What is collected in a run

The course of a body says which events there are, and not everything about them: neither which of
several equal arguments is evaluated, nor in which environment a name is read.  A collector says
what every evaluated operand, every call and every access contributes, and `Body.collected` goes
through the course of a body once more and puts the contributions together in order.

What is collected can be compared with the events.  If it accounts for certain events of operands,
calls and accesses, then it accounts for those of whole bodies (`Body.course_accounts`).
-/

namespace Stencil

/-- What is collected along the course of a body. -/
structure Collector (ρ : Type) (count : Nat) where
  operand : Operand count → Counted → List ρ
  call : Call (Operand count) → Counted → List ρ
  access : Access → List ρ

/-- What operands contribute, if nothing but arguments is evaluated. -/
def Operand.onArgs {ρ : Type} {count : Nat} (f : Fin count → Counted → List ρ) :
    Operand count → Counted → List ρ
  | arg i, s => f i s
  | tree _, _ => []

/-- What is collected when a body runs with the given arguments. -/
def Body.collected {ρ : Type} (answer : AnswerCourse) (limits : Limits) {count : Nat}
    (args : Fin count → Node) (k : Collector ρ count) : Body count → CountedActivation → List ρ
  | .done _, _ => []
  | .inspect i next, a => (next (args i)).collected answer limits args k a
  | .evaluate context operand next, a =>
      let c := (operand.node args).course answer (a.counted context)
      k.operand operand (a.counted context)
        ++ if c.result.aborts then []
          else (next c.result).collected answer limits args k (a.update context c.state)
  | .call context callee next, a =>
      let c := answer (callee.map (Operand.node args)) (a.counted context)
      k.call callee (a.counted context)
        ++ if c.result.aborts then []
          else (next c.result).collected answer limits args k (a.update context c.state)
  | .read context name next, a =>
      match (a.environment context).read name with
      | (v, env) =>
          k.access ⟨a.environment context, .read name⟩
            ++ (next v).collected answer limits args k
              (a.update context ⟨env, a.depths context⟩)
  | .isGlobal name next, a =>
      (next (a.store.globals.contains name)).collected answer limits args k a
  | .isLocal context name next, a =>
      (next ((a.environment context).locals.contains name)).collected answer limits args k a
  | .arity name next, a =>
      (next ((a.store.functions.get? name).map Function.arity)).collected answer limits args k a
  | .bind context name v next, a =>
      k.access ⟨a.environment context, .bind name v⟩
        ++ next.collected answer limits args k
          (a.update context ⟨(a.environment context).bind name v, a.depths context⟩)
  | .define name v next, a =>
      k.access ⟨a.environment 0, .define name v⟩
        ++ next.collected answer limits args k (a.withStore (a.store.define name v))
  | .register name accepted body next, a =>
      match a.store.register name ⟨accepted, body⟩ with
      | (outcome, store) =>
          k.access ⟨a.environment 0, .register name ⟨accepted, body⟩⟩
            ++ (next outcome).collected answer limits args k (a.withStore store)
  | .fork context next, a =>
      (next a.locals.length).collected answer limits args k (a.fork context)
  | .depth next, a => (next (a.depths 0).toNat).collected answer limits args k a
  | .limits next, a => (next limits).collected answer limits args k a
termination_by structural body => body

section Collected

variable {ρ : Type} {answer : AnswerCourse} {limits : Limits} {count : Nat}
  {args : Fin count → Node} {k : Collector ρ count}

theorem Body.collected_evaluate (context : Nat) (operand : Operand count)
    (next : Result → Body count) (a : CountedActivation) :
  (evaluate context operand next).collected answer limits args k a
    = k.operand operand (a.counted context)
      ++ (resume next ((operand.node args).course answer (a.counted context)).result).collected
        answer limits args k
        (a.update context ((operand.node args).course answer (a.counted context)).state)
  := by
  rw [collected, resume]
  split <;> rfl

theorem Body.collected_call (context : Nat) (callee : Call (Operand count))
    (next : Result → Body count) (a : CountedActivation) :
  (call context callee next).collected answer limits args k a
    = k.call callee (a.counted context)
      ++ (resume next
          (answer (callee.map (Operand.node args)) (a.counted context)).result).collected answer
        limits args k
        (a.update context
          (answer (callee.map (Operand.node args)) (a.counted context)).state)
  := by
  rw [collected, resume]
  split <;> rfl

theorem Body.collected_withinLimit (operation source : String) (length : Nat)
    (next : Unit → Body count) (a : CountedActivation) :
  (Member.withinLimit operation source length next).collected answer limits args k a
    = (limits.refusal? operation source length).elim
        ((next ()).collected answer limits args k a) fun _ => []
  := Member.apply_withinLimit (fun body => body.collected answer limits args k a) (fun _ => rfl)
    _ _ _ _

end Collected

/-! ### Events that are accounted for -/

/-- The event of an access. -/
def Access.event (a : Access) : Event :=
  match a.deed with
  | .read name => .reads name
  | .bind name _ => .binds name
  | .define name _ => .defines name
  | .register name _ => .registers name

section Accounts

variable {ρ τ : Type} {select : Event → Option τ} {f : ρ → τ}

/-- What is collected accounts for the events of the course that are selected. -/
def Course.Accounts {σ : Type} (select : Event → Option τ) (f : ρ → τ) (collected : List ρ)
    (c : Course σ) : Prop :=
  c.events.filterMap select = collected.map f

theorem Course.Accounts.after {σ : Type} {collected collected' : List ρ} {before : List Moment}
    (h : (before.map Moment.event).filterMap select = collected.map f) {c : Course σ}
    (h' : c.Accounts select f collected') :
  (c.after before).Accounts select f (collected ++ collected')
  := by rw [Accounts, events_after, List.filterMap_append, List.map_append, h, h']

/-- What arguments, calls and accesses contribute accounts for their events. -/
structure Collector.Accounts (select : Event → Option τ) (f : ρ → τ) (answer : AnswerCourse)
    {count : Nat} (args : Fin count → Node) (k : Collector ρ count) : Prop where
  arg : ∀ i s, ((args i).course answer s).Accounts select f (k.operand (.arg i) s)
  call : ∀ callee s,
    (answer (callee.map (Operand.node args)) s).Accounts select f (k.call callee s)
  access : ∀ a : Access, [a.event].filterMap select = (k.access a).map f

/-- What is collected along a body accounts for the events of the body. -/
theorem Body.course_accounts {answer : AnswerCourse} (limits : Limits) {count : Nat}
    {args : Fin count → Node} {k : Collector ρ count} (hk : k.Accounts select f answer args)
    {body : Body count}
    (hown : body.Always
      (OwnTree fun n => ∀ s, (n.course answer s).Accounts select f (k.operand (.tree n) s)))
    (a : CountedActivation) :
  (body.course answer limits args a).Accounts select f (body.collected answer limits args k a)
  := by
  induction body using Body.induction_on_resume generalizing a with
  | done result => rfl
  | inspect i next ih => apply ih _ hk (hown.2 _)
  | evaluate context operand next ih =>
      have hoperand : ∀ s, ((operand.node args).course answer s).Accounts select f
          (k.operand operand s) := by
        cases operand with
        | arg i => apply hk.arg
        | tree n => apply hown.1
      rw [course_evaluate, collected_evaluate]
      apply Course.Accounts.after (hoperand _)
      apply ih _ hk (OwnTree.resume hown.2 _)
  | call context callee next ih =>
      rw [course_call, collected_call]
      apply Course.Accounts.after (hk.call _ _)
      apply ih _ hk (OwnTree.resume hown.2 _)
  | read context name next ih =>
      apply Course.Accounts.after (hk.access ⟨_, .read name⟩) (ih _ hk (hown.2 _) _)
  | isGlobal name next ih => apply ih _ hk (hown.2 _)
  | isLocal context name next ih => apply ih _ hk (hown.2 _)
  | arity name next ih => apply ih _ hk (hown.2 _)
  | bind context name v next ih =>
      apply Course.Accounts.after (hk.access ⟨_, .bind name v⟩) (ih hk hown.2 _)
  | define name v next ih =>
      apply Course.Accounts.after (hk.access ⟨_, .define name v⟩) (ih hk hown.2 _)
  | register name accepted body next ih =>
      apply Course.Accounts.after (hk.access ⟨_, .register name ⟨accepted, body⟩⟩)
        (ih _ hk (hown.2 _) _)
  | fork context next ih => apply ih _ hk (hown.2 _)
  | depth next ih => apply ih _ hk (hown.2 _)
  | limits next ih => apply ih _ hk (hown.2 _)

/-- The selected events of an activity are its start, if it is selected, and those inside. -/
theorem Activity.filterMap_events_course {answer : AnswerCourse} {limits : Limits}
    (hends : ∀ a r, select (.ends a r) = none) (a : Activity) (s : Counted) :
  (a.course answer limits s).events.filterMap select
    = [Event.starts a].filterMap select
      ++ (a.body.course answer limits a.args.get (a.opening s)).events.filterMap select
  := by
  have hend : ∀ r, [Event.ends a r].filterMap select = [] := by
    intro r
    rw [List.filterMap_cons_none (hends a r), List.filterMap_nil]
  rw [Activity.events_course, ← List.singleton_append, List.filterMap_append,
    List.filterMap_append, hend, List.append_nil]

end Accounts

end Stencil
