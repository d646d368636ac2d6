import Stencil.Session

/-!
# Laws of sessions

A step of a session either replaces its context or adds one to the family
(`Session.cases_of_step?`).  Replacing follows the laws of a lens: it changes nothing but the
frame at its position and the store that this context has, and contexts with different stores can
be replaced in either order.  A context that is added changes nothing about the others.
-/

namespace Stencil.Session

/-- The number of the store of a context. -/
def number? (s : Session) (i : Nat) : Option Nat := s.contexts[i]?.map Prod.fst

/-! ### Contexts of a family -/

section Contexts

variable {s : Session} {i j : Nat} {c : Context}

theorem context?_eq_some_iff :
  s.context? i = some c
    ↔ ∃ number, s.contexts[i]? = some (number, c.toFrame) ∧ s.stores[number]? = some c.store
  := by
  rw [context?]
  rcases hcontext : s.contexts[i]? with _ | ⟨number, frame⟩
  · simp
  · rcases hstore : s.stores[number]? with _ | store
    · simp [hstore]
    · constructor
      · rintro h
        simp only [Option.bind_eq_bind, Option.bind_some, hstore, Option.pure_def,
          Option.some.injEq] at h
        subst h
        exact ⟨number, rfl, hstore⟩
      · rintro ⟨number', hsame, hstore'⟩
        obtain ⟨rfl, rfl⟩ := Prod.mk.inj (Option.some.inj hsame)
        rw [hstore, Option.some.injEq] at hstore'
        subst hstore'
        simp [hstore]

theorem lt_length_of_context? (h : s.context? i = some c) :
  i < s.contexts.length
  := by
  obtain ⟨number, hcontext, -⟩ := context?_eq_some_iff.mp h
  exact (List.getElem?_eq_some_iff.mp hcontext).1

/-- The stores and the frames of a context decide about it. -/
theorem context?_congr {t : Session} (hcontext : t.contexts[i]? = s.contexts[j]?)
    (hstore : ∀ number, s.number? j = some number → t.stores[number]? = s.stores[number]?) :
  t.context? i = s.context? j
  := by
  apply Option.ext
  intro c
  rw [context?_eq_some_iff, context?_eq_some_iff, hcontext]
  apply exists_congr
  intro number
  apply and_congr_right
  intro h
  rw [hstore number (by rw [number?, h]; rfl)]

theorem shares_iff_number? :
  s.shares i j = true ↔ ∃ number, s.number? i = some number ∧ s.number? j = some number
  := by
  rw [shares, number?, number?]
  rcases s.contexts[i]? with _ | ⟨m, _⟩ <;> rcases s.contexts[j]? with _ | ⟨n, _⟩
  · simp
  · simp
  · simp
  · simp only [beq_iff_eq, Option.map_some, Option.some.injEq, exists_eq_left']
    apply eq_comm

theorem shares_comm (s : Session) (i j : Nat) :
  s.shares i j = s.shares j i
  := by
  rw [Bool.eq_iff_iff, shares_iff_number?, shares_iff_number?]
  simp only [and_comm]

/-! ### Replacing a context -/

theorem update_eq {number : Nat} {frame : Frame} (h : s.contexts[i]? = some (number, frame))
    (c : Context) :
  s.update i c = ⟨s.stores.set number c.store, s.contexts.set i (number, c.toFrame)⟩
  := by
  rw [update, h]

theorem update_of_none (h : s.contexts[i]? = none) (c : Context) :
  s.update i c = s
  := by
  rw [update, h]

@[simp]
theorem length_contexts_update (s : Session) (i : Nat) (c : Context) :
  (s.update i c).contexts.length = s.contexts.length
  := by
  rw [update]
  split
  · apply List.length_set
  · rfl

@[simp]
theorem length_stores_update (s : Session) (i : Nat) (c : Context) :
  (s.update i c).stores.length = s.stores.length
  := by
  rw [update]
  split
  · apply List.length_set
  · rfl

/-- A context that is replaced keeps its store. -/
@[simp]
theorem number?_update (s : Session) (i j : Nat) (c : Context) :
  (s.update i c).number? j = s.number? j
  := by
  rcases h : s.contexts[i]? with _ | ⟨number, frame⟩
  · rw [update_of_none h]
  · rw [update_eq h, number?, number?, List.getElem?_set]
    split
    · rename_i hij
      subst hij
      obtain ⟨hlt, -⟩ := List.getElem?_eq_some_iff.mp h
      rw [if_pos hlt, h]
      rfl
    · rfl

theorem contexts_update_of_ne (hij : i ≠ j) (c : Context) :
  (s.update i c).contexts[j]? = s.contexts[j]?
  := by
  rw [update]
  split
  · apply List.getElem?_set_ne hij
  · rfl

theorem stores_update_of_ne {number : Nat} (h : s.number? i ≠ some number) (c : Context) :
  (s.update i c).stores[number]? = s.stores[number]?
  := by
  rcases hcontext : s.contexts[i]? with _ | ⟨m, frame⟩
  · rw [update_of_none hcontext]
  · rw [number?, hcontext] at h
    rw [update_eq hcontext]
    apply List.getElem?_set_ne
    rintro rfl
    exact h rfl

/-- Replacing a context by itself changes nothing. -/
theorem update_self (h : s.context? i = some c) :
  s.update i c = s
  := by
  obtain ⟨number, hcontext, hstore⟩ := context?_eq_some_iff.mp h
  obtain ⟨hi, hi'⟩ := List.getElem?_eq_some_iff.mp hcontext
  obtain ⟨hn, hn'⟩ := List.getElem?_eq_some_iff.mp hstore
  rw [update_eq hcontext, ← hi', ← hn', List.set_getElem_self, List.set_getElem_self]

/-- Contexts with different stores can be replaced in either order. -/
theorem update_comm (hij : i ≠ j) (hnumber : s.number? i ≠ s.number? j) (a b : Context) :
  (s.update i a).update j b = (s.update j b).update i a
  := by
  have hi := contexts_update_of_ne (s := s) hij.symm b
  have hj := contexts_update_of_ne (s := s) hij a
  rcases hfirst : s.contexts[i]? with _ | ⟨m, f⟩
  · rw [update_of_none hfirst, update_of_none (hi.trans hfirst)]
  rcases hsecond : s.contexts[j]? with _ | ⟨n, g⟩
  · rw [update_of_none hsecond, update_of_none (hj.trans hsecond)]
  have hmn : m ≠ n := by
    rintro rfl
    rw [number?, number?, hfirst, hsecond] at hnumber
    contradiction
  rw [update_eq (hj.trans hsecond), update_eq (hi.trans hfirst), update_eq hfirst,
    update_eq hsecond, List.set_comm _ _ hmn, List.set_comm _ _ hij]

/-! ### Adding a context -/

/-- The session with stores and a context at the end. -/
def append (s : Session) (stores : List Store) (number : Nat) (frame : Frame) : Session :=
  ⟨s.stores ++ stores, s.contexts ++ [(number, frame)]⟩

theorem addRoot_eq (s : Session) (limits : Limits) :
  s.addRoot limits = s.append [.empty] s.stores.length (Context.root limits).toFrame
  := rfl

theorem addFork_eq {number : Nat} {frame : Frame} (h : s.contexts[i]? = some (number, frame)) :
  s.addFork i = s.append [] number frame
  := by rw [addFork, h, append, List.append_nil]

theorem contexts_append (s : Session) (stores : List Store) (number : Nat) (frame : Frame)
    (k : Nat) :
  (s.append stores number frame).contexts[k]?
    = if k = s.contexts.length then some (number, frame) else s.contexts[k]?
  := by
  rw [append]
  split
  · rename_i hk
    rw [hk, List.getElem?_concat_length]
  · rename_i hk
    rcases Nat.lt_or_gt_of_ne hk with hlt | hgt
    · rw [List.getElem?_append_left hlt]
    · rw [List.getElem?_eq_none, List.getElem?_eq_none (Nat.le_of_lt hgt)]
      rw [List.length_append, List.length_singleton]
      apply hgt

theorem number?_append (s : Session) (stores : List Store) (number : Nat) (frame : Frame)
    (k : Nat) :
  (s.append stores number frame).number? k
    = if k = s.contexts.length then some number else s.number? k
  := by
  rw [number?, contexts_append]
  split <;> rfl

/-- Adding a context and replacing another one can be exchanged. -/
theorem update_append {k : Nat} (hj : s.number? j = some k) (hk : k < s.stores.length)
    (stores : List Store) (number : Nat) (frame : Frame) (c : Context) :
  (s.append stores number frame).update j c = (s.update j c).append stores number frame
  := by
  obtain ⟨⟨m, own⟩, hcontext, rfl⟩ := Option.map_eq_some_iff.mp hj
  obtain ⟨hlt, -⟩ := List.getElem?_eq_some_iff.mp hcontext
  have happend : (s.append stores number frame).contexts[j]? = some (m, own) := by
    rw [contexts_append, if_neg (Nat.ne_of_lt hlt), hcontext]
  rw [update_eq hcontext, update_eq happend]
  simp only [append, List.set_append_left _ _ hk, List.set_append_left _ _ hlt]

end Contexts

/-! ### Steps -/

/-- The session after a step that adds a context to the family. -/
def Step.add? (s : Session) (i : Nat) : Step → Option Session
  | .newRoot l => some (s.addRoot l)
  | .fork => some (s.addFork i)
  | _ => none

/-- What any other step gives and what it makes of its context, where `shares` says which
positions have the same store. -/
def Step.effect? (shares : Nat → Bool) (c : Context) : Step → Option (Reply × Context)
  | .newRoot _ => none
  | .fork => none
  | .bind name v => some (.done, c.bind name v)
  | .define name v => some (.done, c.define name v)
  | .register name f => some ((c.register name f).map .registered id)
  | .read name => some ((c.read name).map .value id)
  | .arity name => some (.arity (c.arity? name), c)
  | .bound name => some (.bound (c.hasGlobal name) (c.hasLocal name), c)
  | .shares other => some (.shares (shares other), c)
  | .evaluate n => some ((c.evaluate n).map .result id)
  | .render n => some ((c.render n).map .output id)
  | .call callee => some ((c.call callee).map .result id)
  | .evaluateEach nodes => some ((c.evaluateEach nodes).map .values id)
  | .limits => some (.limits c.limits, c)
  | .describe => some (.description c.description, c)

/-- The context that a step on a context adds, if it adds one. -/
def Step.added (c : Context) : Step → Context
  | .newRoot l => .root l
  | _ => c

/-- The position of the context with whose store an added context goes, if there is one. -/
def Step.peer? (i : Nat) : Step → Option Nat
  | .fork => some i
  | _ => none

theorem Step.eq_of_mem_peer? {i k : Nat} {action : Step} (h : k ∈ action.peer? i) :
  k = i
  := by
  cases action with
  | fork => exact (Option.some.inj h).symm
  | _ => cases h

/-- Whether the step adds a context to the family. -/
def Step.grows : Step → Bool
  | .newRoot _ => true
  | .fork => true
  | _ => false

theorem Step.grows_iff {s : Session} {i : Nat} {action : Step} :
  action.grows = true ↔ ∃ t, action.add? s i = some t
  := by cases action <;> simp [grows, add?]

section Steps

variable {s t : Session} {i j : Nat} {c : Context} {action : Step} {reply : Reply}

/-- A step gives a reply if there is a context for it and its run is not aborted. -/
theorem step?_eq_some_iff :
  s.step? i action = some (reply, t)
    ↔ (∃ c, s.context? i = some c ∧ s.act i c action = (reply, t)) ∧ reply.aborts = false
  := by
  rw [step?, Option.filter_eq_some_iff, Option.map_eq_some_iff, Bool.not_eq_true']

theorem not_aborts_of_step? (h : s.step? i action = some (reply, t)) :
  reply.aborts = false
  := (step?_eq_some_iff.mp h).2

theorem step?_of_add? (hi : s.context? i = some c) (h : action.add? s i = some t) :
  s.step? i action = some (.context s.contexts.length, t)
  := by
  refine step?_eq_some_iff.mpr ⟨⟨c, hi, ?_⟩, rfl⟩
  cases action with
  | newRoot limits =>
      obtain rfl := Option.some.inj h
      rfl
  | fork =>
      obtain rfl := Option.some.inj h
      rfl
  | _ => cases h

theorem act_of_effect? {c' : Context} (hi : s.context? i = some c)
    (h : action.effect? (s.shares i) c = some (reply, c')) :
  s.act i c action = (reply, s.update i c')
  := by
  have hself := update_self hi
  cases action with
  | newRoot limits => cases h
  | fork => cases h
  | _ =>
      obtain ⟨rfl, rfl⟩ := Prod.mk.inj (Option.some.inj h)
      first | rfl | rw [hself]; rfl

theorem step?_of_effect? {c' : Context} (hi : s.context? i = some c)
    (h : action.effect? (s.shares i) c = some (reply, c')) (hreply : reply.aborts = false) :
  s.step? i action = some (reply, s.update i c')
  := step?_eq_some_iff.mpr ⟨⟨c, hi, act_of_effect? hi h⟩, hreply⟩

/-- A step either adds a context to the family or replaces its context. -/
theorem cases_of_step? (h : s.step? i action = some (reply, t)) :
  ∃ c, s.context? i = some c
    ∧ ((reply = .context s.contexts.length ∧ action.add? s i = some t)
      ∨ ∃ c', action.effect? (s.shares i) c = some (reply, c') ∧ t = s.update i c')
  := by
  obtain ⟨⟨c, hi, hact⟩, -⟩ := step?_eq_some_iff.mp h
  have hcases : (∃ t, action.add? s i = some t)
      ∨ ∃ r, action.effect? (s.shares i) c = some r := by
    cases action with
    | newRoot limits => exact .inl ⟨_, rfl⟩
    | fork => exact .inl ⟨_, rfl⟩
    | _ => exact .inr ⟨_, rfl⟩
  refine ⟨c, hi, ?_⟩
  rcases hcases with ⟨t', hadd⟩ | ⟨⟨reply', c'⟩, heffect⟩
  · have hsame := (step?_of_add? hi hadd).symm.trans h
    obtain ⟨rfl, rfl⟩ := Prod.mk.inj (Option.some.inj hsame)
    exact .inl ⟨rfl, hadd⟩
  · obtain ⟨rfl, rfl⟩ := Prod.mk.inj ((act_of_effect? hi heffect).symm.trans hact)
    exact .inr ⟨c', heffect, rfl⟩

theorem add?_of_grows (h : s.step? i action = some (reply, t)) (hgrows : action.grows = true) :
  ∃ c, s.context? i = some c ∧ reply = .context s.contexts.length ∧ action.add? s i = some t
  := by
  obtain ⟨c, hi, hadd | ⟨c', heffect, -⟩⟩ := cases_of_step? h
  · exact ⟨c, hi, hadd⟩
  · cases action with
    | newRoot limits => cases heffect
    | fork => cases heffect
    | _ => cases hgrows

/-- A step leaves what the other contexts have of their own alone, and their place in the
family. -/
theorem contexts_step? (h : s.step? i action = some (reply, t)) (hj : j < s.contexts.length)
    (hij : i ≠ j) :
  t.contexts[j]? = s.contexts[j]?
  := by
  obtain ⟨c, hi, ⟨-, hadd⟩ | ⟨c', -, rfl⟩⟩ := cases_of_step? h
  · cases action with
    | newRoot limits =>
        obtain rfl := Option.some.inj hadd
        rw [addRoot_eq, contexts_append, if_neg (Nat.ne_of_lt hj)]
    | fork =>
        obtain rfl := Option.some.inj hadd
        obtain ⟨number, hcontext, -⟩ := context?_eq_some_iff.mp hi
        rw [addFork_eq hcontext, contexts_append, if_neg (Nat.ne_of_lt hj)]
    | _ => cases hadd
  · apply contexts_update_of_ne hij

end Steps

/-! ### Histories -/

/-- The replies to steps, each on the context at a position of the family, and the session
afterwards. -/
def run? (s : Session) : List (Nat × Step) → Option (List Reply × Session)
  | [] => some ([], s)
  | (i, action) :: rest =>
      (s.step? i action).bind fun (reply, t) =>
        (t.run? rest).map fun (replies, u) => (reply :: replies, u)

end Stencil.Session
