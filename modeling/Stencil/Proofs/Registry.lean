import Stencil.Function.Stock
import Stencil.Proofs.Access.Session
import Stencil.Proofs.Course.Changes

/-!
# The registry of functions is write-once

What a name stands for as a function is decided by the first registration under this name that
comes to a store: it succeeds, every later one is refused, and a refusal changes nothing
(`Session.registry_once`).  This holds for all contexts with the store at any time, also in the
middle of an evaluation, and for the functions that are registered there.

The log of the store tells all registrations in order.  A single access adds a function to the store
exactly if it registers it (`Access.functions_after`), from which it follows for whole logs
(`Leads.functions`).
-/

namespace Stencil

/-- The function is registered under the name, and not refused. -/
def Access.Registers (name : String) (f : Function) (a : Access) : Prop :=
  a.deed = .register name f ∧ (a.environment.store.register name f).1 = .ok ()

/-! ### Registering once -/

namespace Store

variable {s : Store} {name : String}

theorem register_of_none (h : s.functions.get? name = none) (f : Function) :
  s.register name f = (.ok (), { s with functions := s.functions.insert name f })
  := by rw [register, Table.contains, h, Option.isSome_none, if_neg Bool.false_ne_true]

theorem register_of_some {g : Function} (h : s.functions.get? name = some g) (f : Function) :
  s.register name f = (fail (.functionAlreadyExists name), s)
  := by rw [register, Table.contains, h, Option.isSome_some, if_pos rfl]

theorem register_fst_eq_ok_iff {f : Function} :
  (s.register name f).1 = .ok () ↔ s.functions.get? name = none
  := by
  cases h : s.functions.get? name with
  | none => simp [register_of_none h]
  | some g => simp [register_of_some h, fail]

/-- A function is refused exactly if there is one of the name. -/
theorem register_fst_eq_fail_iff {f : Function} :
  (s.register name f).1 = fail (.functionAlreadyExists name)
    ↔ ∃ g, s.functions.get? name = some g
  := by
  cases h : s.functions.get? name with
  | none => simp [register_of_none h, fail]
  | some g => simp [register_of_some h]

/-- Refusing a function leaves the store as it is. -/
theorem register_snd_of_ne_ok {f : Function} (h : (s.register name f).1 ≠ .ok ()) :
  (s.register name f).2 = s
  := by
  rw [ne_eq, register_fst_eq_ok_iff, ← ne_eq, Option.ne_none_iff_exists'] at h
  obtain ⟨g, hg⟩ := h
  rw [register_of_some hg]

end Store

/-- An access adds a function exactly if it registers it. -/
theorem Access.functions_after (a : Access) (name : String) (f : Function) :
  a.after.store.functions.get? name = some f
    ↔ a.environment.store.functions.get? name = some f ∨ a.Registers name f
  := by
  obtain ⟨e, deed⟩ := a
  cases deed with
  | read other => simp [after, Registers, e.functions_read]
  | bind other v => simp [after, Registers, Environment.bind, Store.functions_allocate]
  | define other v => simp [after, Registers, Store.define, Store.functions_allocate]
  | register other g =>
      simp only [after, Registers, Deed.register.injEq]
      cases h : e.store.functions.get? other with
      | none =>
          rw [Store.register_of_none h, Table.get?_insert]
          by_cases hname : name = other
          · subst hname
            simp [h, Store.register_of_none h]
          · simp [hname, Ne.symm hname]
      | some first =>
          rw [Store.register_of_some h]
          constructor
          · exact .inl
          · rintro (hbefore | ⟨⟨rfl, rfl⟩, hregister⟩)
            · exact hbefore
            · rw [Store.register_of_some h] at hregister
              cases hregister

/-- A log adds those functions that are registered in it. -/
theorem Leads.functions {known : List (Nat → Value)} {s s' : Store} {log : List Access}
    (h : Leads known s log s') (name : String) (f : Function) :
  s'.functions.get? name = some f
    ↔ s.functions.get? name = some f ∨ ∃ a ∈ log, a.Registers name f
  := by
  induction h with
  | nil known s => simp
  | cons a _ _ ih =>
      rw [ih, a.functions_after, or_assoc]
      simp only [List.mem_cons, exists_eq_or_imp]

/-- What a name stands for stays throughout a log. -/
theorem Leads.functions_kept {known : List (Nat → Value)} {s s' : Store} {log : List Access}
    (h : Leads known s log s') {name : String} {f : Function}
    (hf : s.functions.get? name = some f) :
  s'.functions.get? name = some f
    ∧ ∀ a ∈ log, a.environment.store.functions.get? name = some f
      ∧ a.after.store.functions.get? name = some f
  := by
  refine ⟨(h.functions name f).mpr (.inl hf), fun a ha => ?_⟩
  obtain ⟨before, after, rfl⟩ := List.append_of_mem ha
  obtain ⟨hbefore, -⟩ := h.of_append_cons
  have hfound := (hbefore.functions name f).mpr (.inl hf)
  exact ⟨hfound, (a.functions_after name f).mpr (.inl hfound)⟩

namespace Session

/-- The functions that the contexts with a store know in a session, where `log` tells what has been
done with names so far, by these contexts and by those that have been forked inside evaluations. -/
structure RegistersOnce (number : Nat) (log : List Access) (s : Session) : Prop where
  /-- A name stands for the function that was successfully registered under it. -/
  resolves_iff : ∀ i c, s.context? i = some c → s.number? i = some number → ∀ name f,
    c.store.functions.get? name = some f ↔ ∃ a ∈ log, a.Registers name f
  /-- This was so whenever something was done with a name. -/
  resolved_iff : ∀ before a after, log = before ++ a :: after → ∀ name f,
    a.environment.store.functions.get? name = some f ↔ ∃ b ∈ before, b.Registers name f
  /-- What a name stands for, it stands for ever after. -/
  stays : ∀ i c, s.context? i = some c → s.number? i = some number → ∀ name f,
    c.store.functions.get? name = some f → ∀ moves t, s.moves? moves = some t →
      (∀ j d, t.context? j = some d → t.shares i j = true → d.store.functions.get? name = some f)
        ∧ ∀ a ∈ s.accesses number moves, a.environment.store.functions.get? name = some f
          ∧ a.after.store.functions.get? name = some f
  /-- So it is with what a name stood for when something was done with a name. -/
  stayed : ∀ before a after, log = before ++ a :: after → ∀ name f,
    a.environment.store.functions.get? name = some f →
      (∀ i c, s.context? i = some c → s.number? i = some number →
        c.store.functions.get? name = some f)
      ∧ a.after.store.functions.get? name = some f
      ∧ ∀ b ∈ after, b.environment.store.functions.get? name = some f
        ∧ b.after.store.functions.get? name = some f
  /-- A function is refused exactly if there is one of the name, and then the session stays as it
  is. -/
  registers : ∀ i c, s.context? i = some c → s.number? i = some number → ∀ name f,
    ∃ outcome t, s.step? i (.register name f) = some (.registered outcome, t)
      ∧ (outcome = fail (.functionAlreadyExists name) ↔ ∃ g, c.store.functions.get? name = some g)
      ∧ (outcome = .ok () ↔ c.store.functions.get? name = none)
      ∧ (outcome ≠ .ok () → t = s)
  /-- So it was in evaluations. -/
  registered : ∀ a ∈ log, ∀ name f, a.deed = .register name f →
    ((a.environment.store.register name f).1 = fail (.functionAlreadyExists name)
        ↔ ∃ g, a.environment.store.functions.get? name = some g)
      ∧ ((a.environment.store.register name f).1 = .ok ()
        ↔ a.environment.store.functions.get? name = none)
      ∧ ((a.environment.store.register name f).1 ≠ .ok () → a.after = a.environment)

/-- Registering a function in a context. -/
theorem step?_register {s : Session} {i : Nat} {c : Context} (hi : s.context? i = some c)
    (name : String) (f : Function) :
  ∃ t, s.step? i (.register name f) = some (.registered (c.store.register name f).1, t)
    ∧ ((c.store.register name f).1 ≠ .ok () → t = s)
  := by
  refine ⟨s.update i (c.register name f).2, step?_of_effect? hi rfl rfl, fun h => ?_⟩
  have hsame : (c.register name f).2 = c := by
    rw [Context.register]
    simp only [Store.register_snd_of_ne_ok h]
  rw [hsame]
  apply update_self hi

/-- The functions of a session are registered once.  A body that tries to register another one goes
on with the failure, and with all its contexts as they were. -/
theorem registry_once {moves : List Move} {s : Session} (h : nothing.moves? moves = some s)
    (number : Nat) :
  s.RegistersOnce number (nothing.accesses number moves)
    ∧ ∀ (answer : Answer) (limits : Limits) (depth count : Nat) (args : Fin count → Node)
      (name : String) (f : Function) (next : Attempt Unit → Body count) (a : Activation),
      (∃ g, a.store.functions.get? name = some g) →
        (Body.register name f.arity f.body next).run answer limits depth args a
          = (next (fail (.functionAlreadyExists name))).run answer limits depth args a
  := by
  refine ⟨?_, ?_⟩
  case refine_2 =>
    rintro answer limits depth count args name f next a ⟨g, hg⟩
    rw [Body.run, Store.register_of_some hg]
  obtain ⟨hleads, hsound⟩ := leads h number
  have hnone : ∀ name f, Store.empty.functions.get? name ≠ some f := by
    intro name f hf
    cases hf
  constructor
  case resolves_iff =>
    intro i c hi hnumber name f
    rw [← store_eq_of_context? hi hnumber, hleads.functions, or_iff_right (hnone name f)]
  case resolved_iff =>
    intro before a after hlog name f
    rw [hlog] at hleads
    rw [hleads.of_append_cons.1.functions, or_iff_right (hnone name f)]
  case stays =>
    intro i c hi hnumber name f hf rest t ht
    rw [← store_eq_of_context? hi hnumber] at hf
    obtain ⟨hrest, -⟩ := carries_moves ht number _ hsound
    obtain ⟨hlast, hinside⟩ := hrest.functions_kept hf
    refine ⟨fun j d hj hshares => ?_, hinside⟩
    obtain ⟨number', hi', hj'⟩ := shares_iff_number?.mp hshares
    obtain rfl := Option.some.inj (hi'.symm.trans (number?_of_moves? ht hnumber))
    rw [← store_eq_of_context? hj hj']
    apply hlast
  case stayed =>
    intro before a after hlog name f hf
    rw [hlog] at hleads
    have hafter := (a.functions_after name f).mpr (.inl hf)
    obtain ⟨hlast, hinside⟩ := hleads.of_append_cons.2.functions_kept hafter
    refine ⟨fun i c hi hnumber => ?_, hafter, hinside⟩
    rw [← store_eq_of_context? hi hnumber]
    apply hlast
  case registers =>
    intro i c hi hnumber name f
    obtain ⟨t, hstep, hsame⟩ := step?_register hi name f
    exact ⟨_, t, hstep, Store.register_fst_eq_fail_iff, Store.register_fst_eq_ok_iff, hsame⟩
  case registered =>
    intro a _ name f hdeed
    refine ⟨Store.register_fst_eq_fail_iff, Store.register_fst_eq_ok_iff, fun hrefused => ?_⟩
    simp only [Access.after, hdeed, Store.register_snd_of_ne_ok hrefused]

/-- A function that is called in a fork registers another one, for the context that has been forked
as well. -/
theorem registry_once_of_call :
  ∃ (moves : List Move) (s : Session) (n : Node),
    n = .call "install" [] none
      ∧ moves = [.build { functions := [("install", .register .any "late" (.sum .any))] },
        .step 0 .fork, .step 1 (.evaluate n)]
      ∧ nothing.moves? moves = some s
      ∧ s.RegistersOnce 0 (nothing.accesses 0 moves)
      ∧ (s.context? 0).bind (fun c => c.arity? "late") = some .any
      ∧ (s.step? 0 (.register "late" (.list .any))).map Prod.fst
        = some (.registered (fail (.functionAlreadyExists "late")))
  := by
  let n : Node := .call "install" [] none
  let moves : List Move :=
    [.build { functions := [("install", .register .any "late" (.sum .any))] }, .step 0 .fork,
      .step 1 (.evaluate n)]
  have hmoves : nothing.moves? moves = some _ := rfl
  exact ⟨moves, _, n, rfl, rfl, hmoves, (registry_once hmoves 0).1, rfl, rfl⟩

end Session

end Stencil
