import Mathlib.Data.Prod.Lex
import Stencil.Function.Stock
import Stencil.Proofs.Machine

/-!
# Termination

The machine that evaluates one step at a time is bounded by nothing but the check for a
call, that the count of its context is below the limit.  Nevertheless it ends, with what the
evaluation gives, because whatever is in progress has a smaller rank than what is in progress
around it: it started with fewer calls left below the limit, or with as many and a smaller
node (`Context.evaluation_terminates`).

The invariant of a step is `Machine.Descends`.  Functions that only forward to each other in
a ring show that it is the limit which ends a run: calling one of them fails because of it.
-/

namespace Stencil

/-! ### Ranks -/

namespace Activity

/-- The size of a node; a call comes below all nodes. -/
def size : Activity → Nat
  | node n => n.size
  | call _ _ => 0

theorem size_pos {a : Activity} (h : a.isCall = false) :
  0 < a.size
  := by
  cases a with
  | node n =>
      rw [size, n.size_eq]
      apply Nat.succ_pos
  | call callee body => contradiction

/-- How far below the limit the count is when the activity starts, and the size of the
activity. -/
def rank (limits : Limits) (a : Activity) (depth : Size) : ℕ ×ₗ ℕ :=
  toLex (limits.maxCallDepth.toNat - depth.toNat, a.size)

end Activity

/-- The rank of an activity in progress. -/
def Level.rank {count : Nat} (limits : Limits) (l : Level count) : ℕ ×ₗ ℕ :=
  l.activity.rank limits l.depth

/-- The ranks of the activities in progress, innermost first. -/
def Machine.ranks (limits : Limits) : Machine → List (ℕ ×ₗ ℕ)
  | .running l _ waiting => l.rank limits :: waiting.map fun w => w.level.rank limits
  | .ended _ _ => []

/-! ### What steps preserve -/

/-- The level is as a level should be: its contexts have one more open call than there were
at its start if it is a call, for which there was room, and as many if it is a node, whose
subtrees are the arguments. -/
structure Level.Fits {count : Nat} (limits : Limits) (l : Level count) : Prop where
  contexts : l.contexts.Level (l.activity.depthInside l.depth)
  room : l.activity.isCall = true → l.depth < limits.maxCallDepth
  args : l.activity.isCall = false → ∀ i, (l.args i).size < l.activity.size

/-- The body evaluates only arguments, if it is that of a node. -/
def Level.Asks {count : Nat} (l : Level count) (body : Body count) : Prop :=
  l.activity.isCall = false → body.Always (Body.OwnTree fun _ => False)

/-- Above the waiting activities there may be one that starts at the given count and has the
given rank. -/
inductive Supports (limits : Limits) : Size → ℕ ×ₗ ℕ → List Waiting → Prop where
  | nil (start : Size) (rank : ℕ ×ₗ ℕ) : Supports limits start rank []
  | cons {start : Size} {rank : ℕ ×ₗ ℕ} {w : Waiting} {waiting : List Waiting}
      (hstart : w.level.activity.depthInside w.level.depth = start)
      (hrank : rank < w.level.rank limits) (hfits : w.level.Fits limits)
      (hasks : ∀ r, w.level.Asks (w.next r))
      (hwaiting : Supports limits w.level.depth (w.level.rank limits) waiting) :
      Supports limits start rank (w :: waiting)

/-- All levels are as they should be, and each has a smaller rank than those around it. -/
def Machine.Descends (limits : Limits) : Machine → Prop
  | .running l body waiting =>
      l.Fits limits ∧ l.Asks body ∧ Supports limits l.depth (l.rank limits) waiting
  | .ended _ _ => True

theorem Supports.pairwise {limits : Limits} {start : Size} {rank : ℕ ×ₗ ℕ} {waiting : List Waiting}
    (h : Supports limits start rank waiting) :
  (rank :: waiting.map fun w => w.level.rank limits).Pairwise (· < ·)
  := by
  induction h with
  | nil start rank => apply List.pairwise_singleton
  | @cons start rank w waiting hstart hrank hfits hasks hwaiting ih =>
      rw [List.map_cons, List.pairwise_cons]
      refine ⟨?_, ih⟩
      intro other hother
      rcases List.mem_cons.mp hother with rfl | hmem
      · apply hrank
      · apply lt_trans hrank (List.rel_of_pairwise_cons ih hmem)

theorem Machine.Descends.pairwise {limits : Limits} {m : Machine} (h : m.Descends limits) :
  (m.ranks limits).Pairwise (· < ·)
  := by
  cases m with
  | running l body waiting => apply h.2.2.pairwise
  | ended result s => apply List.Pairwise.nil

section Steps

variable {limits : Limits} {count : Nat} {l : Level count}

/-- What starts inside a call has a smaller rank than the call. -/
theorem Level.Fits.lt_rank_of_isCall (h : l.Fits limits) (hcall : l.activity.isCall = true)
    (a : Activity) :
  a.rank limits (l.activity.depthInside l.depth) < l.rank limits
  := by
  have hroom := UInt64.lt_iff_toNat_lt.mp (h.room hcall)
  have hdepth := toNat_depthInside h.room
  rw [List.countP_singleton, if_pos hcall] at hdepth
  rw [Level.rank, Activity.rank, Activity.rank, Prod.Lex.toLex_lt_toLex]
  left
  simp only
  omega

/-- What starts inside a node has a smaller rank than the node, if it is smaller. -/
theorem Level.lt_rank_of_size_lt (hcall : l.activity.isCall = false) {a : Activity}
    (hsize : a.size < l.activity.size) :
  a.rank limits (l.activity.depthInside l.depth) < l.rank limits
  := by
  rw [Level.rank, Activity.rank, Activity.rank, Activity.depthInside, hcall,
    Prod.Lex.toLex_lt_toLex]
  right
  exact ⟨rfl, hsize⟩

/-- A call from a level has a smaller rank. -/
theorem Level.Fits.call_lt_rank (h : l.Fits limits) (callee : Call Node)
    (body : Body callee.args.length) :
  (Activity.call callee body).rank limits (l.activity.depthInside l.depth) < l.rank limits
  := by
  cases hcall : l.activity.isCall with
  | true => apply h.lt_rank_of_isCall hcall
  | false =>
      apply Level.lt_rank_of_size_lt hcall
      apply Activity.size_pos hcall

/-- A node that a level evaluates has a smaller rank. -/
theorem Level.Fits.node_lt_rank (h : l.Fits limits) {context : Nat} {operand : Operand count}
    {next : Result → Body count} (hasks : l.Asks (.evaluate context operand next)) :
  (Activity.node (operand.node l.args)).rank limits (l.activity.depthInside l.depth)
    < l.rank limits
  := by
  cases hcall : l.activity.isCall with
  | true => apply h.lt_rank_of_isCall hcall
  | false =>
      apply Level.lt_rank_of_size_lt hcall
      cases operand with
      | arg i => apply h.args hcall
      | tree n => exact absurd (hasks hcall).1 id

theorem Level.Fits.withContexts (h : l.Fits limits) {contexts : CountedActivation}
    (hcontexts : contexts.Level (l.activity.depthInside l.depth)) :
  (l.withContexts contexts).Fits limits
  := ⟨hcontexts, h.room, h.args⟩

/-- A level supports what starts inside it with a smaller rank. -/
theorem Level.Fits.supports (h : l.Fits limits) {waiting : List Waiting}
    (hwaiting : Supports limits l.depth (l.rank limits) waiting) {context : Nat}
    {next : Result → Body count} (hasks : ∀ r, l.Asks (next r)) {start : Size}
    (hstart : l.activity.depthInside l.depth = start) {rank : ℕ ×ₗ ℕ}
    (hrank : rank < l.rank limits) :
  Supports limits start rank (⟨count, l, context, next⟩ :: waiting)
  := Supports.cons hstart hrank h hasks hwaiting

/-- An activity ends with the count with which it starts. -/
theorem Activity.depth_closing (a : Activity) (depth : Size) {s : Counted}
    (h : s.depth = a.depthInside depth) :
  (a.closing s).depth = depth
  := by
  cases a with
  | node n => apply h
  | call callee body =>
      rw [closing, h]
      apply UInt64.add_sub_cancel

namespace Machine

theorem descends_start {a : Activity} {s : Counted} {waiting : List Waiting}
    (hroom : a.isCall = true → s.depth < limits.maxCallDepth)
    (hwaiting : Supports limits s.depth (a.rank limits s.depth) waiting) :
  (start a s waiting).Descends limits
  := by
  refine ⟨⟨fun _ => rfl, hroom, ?_⟩, ?_, hwaiting⟩
  · intro hcall i
    cases a with
    | node n => apply Node.size_lt_of_mem_children (List.get_mem _ i)
    | call callee body => contradiction
  · intro hcall
    cases a with
    | node n => apply n.plain_body.ownTree
    | call callee body => contradiction

theorem descends_resume {s : Counted} {rank : ℕ ×ₗ ℕ} {waiting : List Waiting}
    (hwaiting : Supports limits s.depth rank waiting) (result : Result) :
  (resume result s waiting).Descends limits
  := by
  cases hwaiting with
  | nil => trivial
  | cons hstart hrank hfits hasks hwaiting =>
      refine ⟨hfits.withContexts ?_, ?_, hwaiting⟩
      · apply hfits.contexts.update _ hstart.symm
      · intro hcall
        apply Body.Always.resume (fun r => hasks r hcall) fun _ => trivial

theorem descends_enter {callee : Call Node} {s : Counted} {waiting : List Waiting}
    (hwaiting : ∀ body : Body callee.args.length,
      Supports limits s.depth ((Activity.call callee body).rank limits s.depth) waiting) :
  (enter limits callee s waiting).Descends limits
  := by
  rw [enter]
  cases s.store.bodyOf callee with
  | error e => apply descends_resume (hwaiting (.done (.error e)))
  | ok body =>
      simp only
      split
      · apply descends_resume (hwaiting body)
      · rename_i hroom
        apply descends_start _ (hwaiting body)
        intro _
        apply UInt64.not_le.mp hroom

/-- A step preserves that ranks descend. -/
theorem Descends.step {m : Machine} (h : m.Descends limits) :
  (m.step limits).Descends limits
  := by
  cases m with
  | ended result s => trivial
  | @running count l body waiting =>
      obtain ⟨hfits, hasks, hwaiting⟩ := h
      have hdepth := hfits.contexts
      cases body with
      | done result =>
          have hclosing : (l.activity.closing (l.contexts.counted 0)).depth = l.depth :=
            l.activity.depth_closing l.depth (hdepth 0)
          rw [← hclosing] at hwaiting
          apply descends_resume hwaiting
      | inspect i next => exact ⟨hfits, fun hcall => (hasks hcall).2 _, hwaiting⟩
      | evaluate context operand next =>
          have hcounted : (l.contexts.counted context).depth = l.activity.depthInside l.depth :=
            hdepth context
          apply descends_start
          · intro hcall
            contradiction
          · apply hfits.supports hwaiting (fun r hcall => (hasks hcall).2 r) hcounted.symm
            rw [hcounted]
            apply hfits.node_lt_rank hasks
      | call context callee next =>
          have hcounted : (l.contexts.counted context).depth = l.activity.depthInside l.depth :=
            hdepth context
          apply descends_enter
          intro body
          apply hfits.supports hwaiting (fun r hcall => (hasks hcall).2 r) hcounted.symm
          rw [hcounted]
          apply hfits.call_lt_rank
      | read context name next =>
          refine ⟨hfits.withContexts ?_, fun hcall => (hasks hcall).2 _, hwaiting⟩
          apply hdepth.update _ (hdepth context)
      | isGlobal name next => exact ⟨hfits, fun hcall => (hasks hcall).2 _, hwaiting⟩
      | isLocal context name next => exact ⟨hfits, fun hcall => (hasks hcall).2 _, hwaiting⟩
      | arity name next => exact ⟨hfits, fun hcall => (hasks hcall).2 _, hwaiting⟩
      | bind context name v next =>
          refine ⟨hfits.withContexts ?_, fun hcall => (hasks hcall).2, hwaiting⟩
          apply hdepth.update _ (hdepth context)
      | define name v next =>
          refine ⟨hfits.withContexts ?_, fun hcall => (hasks hcall).2, hwaiting⟩
          apply hdepth.withStore
      | register name accepted body next =>
          refine ⟨hfits.withContexts ?_, fun hcall => (hasks hcall).2 _, hwaiting⟩
          apply hdepth.withStore
      | fork context next =>
          refine ⟨hfits.withContexts ?_, fun hcall => (hasks hcall).2 _, hwaiting⟩
          apply hdepth.fork
      | depth next => exact ⟨hfits, fun hcall => (hasks hcall).2 _, hwaiting⟩
      | limits next => exact ⟨hfits, fun hcall => (hasks hcall).2 _, hwaiting⟩

theorem Descends.iterate {m : Machine} (h : m.Descends limits) (k : ℕ) :
  (((Machine.step limits)^[k]) m).Descends limits
  := by
  induction k generalizing m with
  | zero => apply h
  | succ k ih => apply ih h.step

end Machine

end Steps

/-! ### Rings of functions -/

/-- The functions do nothing but forward to each other in a ring: called with a number of
arguments that it accepts, each of them calls the next one with a number of arguments that
this one accepts, and hands an error back. -/
structure Store.Forwards (s : Store) {length : Nat} (ring : Fin (length + 1) → String)
    (functions : Fin (length + 1) → Function) : Prop where
  registered : ∀ i, s.functions.get? (ring i) = some (functions i)
  forwards : ∀ i count scope, (functions i).arity.accepts count = true →
    ∃ args scope' next, (functions (i + 1)).arity.accepts args.length = true
      ∧ (∀ e, next (.error e) = .done (.error e))
      ∧ (functions i).body count scope = .call 0 (.function (ring (i + 1)) args scope') next

section Forwards

variable {length : Nat} {ring : Fin (length + 1) → String}
  {functions : Fin (length + 1) → Function}

theorem Store.Forwards.bodyOf {s : Store} (h : s.Forwards ring functions) (i : Fin (length + 1))
    {args : List Node} (haccepts : (functions i).arity.accepts args.length = true)
    (scope : Option Scope) :
  s.bodyOf (.function (ring i) args scope) = .ok ((functions i).body args.length scope)
  := by
  rw [Store.bodyOf, Store.callee, h.registered i]
  apply if_pos haccepts

/-- A body that forwards to a call which fails and changes nothing does the same. -/
theorem Body.run_call_of_error {answer : Answer} {limits : Limits} {depth count : Nat}
    {args : Fin count → Node} {callee : Call (Operand count)} {next : Result → Body count}
    {env : Environment} {e : Failure}
    (hcall : answer (callee.map (Operand.node args)) env = (.error e, env))
    (hnext : next (.error e) = .done (.error e)) :
  (Body.call 0 callee next).run answer limits depth args ⟨env.store, [env.locals]⟩
    = (.error e, ⟨env.store, [env.locals]⟩)
  := by
  have hcaller : answer (callee.map (Operand.node args))
      (Activation.environment ⟨env.store, [env.locals]⟩ 0) = (.error e, env) :=
    hcall
  rw [Body.run_call, hcaller, Body.resume_of_eq_done hnext]
  rfl

/-- Calling a function of the ring fails because of the limit and changes nothing. -/
theorem answer_of_forwards (limits : Limits) (budget depth : Nat) {env : Environment}
    (h : env.store.Forwards ring functions) (i : Fin (length + 1)) {args : List Node}
    (haccepts : (functions i).arity.accepts args.length = true) (scope : Option Scope) :
  answer limits budget depth (.function (ring i) args scope) env
    = (fail (.callDepthExceeded limits.maxCallDepth), env)
  := by
  induction budget generalizing depth i args scope with
  | zero => rw [answer, h.bodyOf i haccepts]
  | succ budget ih =>
      obtain ⟨operands, scope', next, hoperands, hnext, hbody⟩ :=
        h.forwards i args.length scope haccepts
      have hinner : (functions (i + 1)).arity.accepts
          (operands.map (Operand.node fun i => args[i])).length = true := by
        rwa [List.length_map]
      have hcall := ih (depth + 1) (i + 1) hinner scope'
      have hrun : ((functions i).body args.length scope).run (answer limits budget (depth + 1))
          limits (depth + 1) (fun i => args[i]) ⟨env.store, [env.locals]⟩
            = (fail (.callDepthExceeded limits.maxCallDepth), ⟨env.store, [env.locals]⟩) := by
        rw [hbody]
        apply Body.run_call_of_error
        · apply hcall
        · apply hnext
      rw [answer, h.bodyOf i haccepts]
      exact congrArg (fun r => (r.1, r.2.environment 0)) hrun

end Forwards

namespace Context

/-- Started with a node, the machine ends in some number of steps with what the evaluation of
the node gives.  At every step on the way, what is in progress has a smaller rank than what is
in progress around it: fewer calls were left below the limit when it started, or as many and
it is a smaller node.  In particular, calling a function of a ring in which all do nothing but
forward to the next one fails because of the limit, and leaves the context as it was. -/
theorem evaluation_terminates (c : Context) (n : Node) :
  (∃ k, (Machine.step c.limits)^[k] (.start (.node n) c.counted [])
      = .ended (c.evaluate n).1 (c.evaluate n).2.counted)
    ∧ (∀ k, List.Pairwise (· < ·)
      (((Machine.step c.limits)^[k] (.start (.node n) c.counted [])).ranks c.limits))
    ∧ ∀ (length : Nat) (ring : Fin (length + 1) → String)
        (functions : Fin (length + 1) → Function), c.store.Forwards ring functions →
      ∀ i args scope, (functions i).arity.accepts args.length = true →
        c.call (.function (ring i) args scope)
          = (fail (.callDepthExceeded c.limits.maxCallDepth), c)
  := by
  and_intros
  · apply c.reaches_evaluate n
  · intro k
    have hstart : (Machine.start (.node n) c.counted []).Descends c.limits := by
      apply Machine.descends_start
      · intro hcall
        contradiction
      · apply Supports.nil
    apply (hstart.iterate k).pairwise
  · intro length ring functions hforwards i args scope haccepts
    rw [call, Context.answer, answer_of_forwards c.limits _ _ hforwards i haccepts scope]
    rfl

/-- Two functions that forward to each other. -/
theorem evaluation_terminates_in_ring :
  ∃ (c : Context) (ring : Fin 2 → String) (functions : Fin 2 → Function),
    c.store.Forwards ring functions ∧ c.limits.maxCallDepth = 3 ∧ ring 0 = "a" ∧ ring 1 = "b"
      ∧ c.call (.function "b" [] none) = (fail (.callDepthExceeded 3), c)
  := by
  let first := Function.forward .any "b"
  let second := Function.forward .any "a"
  let c := (((root ⟨3, 8⟩).register "a" first).2.register "b" second).2
  let ring : Fin 2 → String := fun i => if i = 0 then "a" else "b"
  let functions : Fin 2 → Function := fun i => if i = 0 then first else second
  have hregistered : ∀ i, c.store.functions.get? (ring i) = some (functions i) :=
    Fin.forall_fin_two.mpr ⟨rfl, rfl⟩
  have hforwards : c.store.Forwards ring functions := by
    refine ⟨hregistered, fun i count scope haccepts => ?_⟩
    have hcount : (functions (i + 1)).arity.accepts (Operand.all count).length = true := by
      have harity : ∀ i, (functions i).arity = .any := Fin.forall_fin_two.mpr ⟨rfl, rfl⟩
      rw [harity] at haccepts ⊢
      simpa [Operand.all] using haccepts
    have hbody : ∀ i, (functions i).body count scope
        = .call 0 (.function (ring (i + 1)) (Operand.all count) scope) .done :=
      Fin.forall_fin_two.mpr ⟨rfl, rfl⟩
    exact ⟨Operand.all count, scope, .done, hcount, fun _ => rfl, hbody i⟩
  obtain ⟨-, -, hring⟩ := c.evaluation_terminates (.call "b" [] none)
  have hcall := hring 1 ring functions hforwards 1 [] none rfl
  exact ⟨c, ring, functions, hforwards, rfl, rfl, rfl, hcall⟩

end Context

end Stencil
