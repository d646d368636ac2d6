import Mathlib.Logic.Equiv.Basic
import Stencil.Proofs.Session

/-!
# Isolation of contexts

In a session, the contexts that descend by forks from the same root have the same store, and no
others do.  A step on a context changes nothing that another context has of its own, and nothing
at all of a context with another root.  So two steps on contexts with different roots can be
exchanged: each gives what it gives in the other order, and so does the session that is reached,
except that two contexts which are new to the family exchange their positions
(`Session.contexts_isolated`).

The invariant that steps preserve is `Session.Rooted`.  It ties the numbers of the stores, which
say which contexts have the same store, to the roots, which can be read off the history.
-/

namespace Stencil.Session

/-! ### Descent -/

/-- The roots after a step, where `roots` has for each context of the family the position of the
context from which it descends by forks. -/
def rootsAfter (roots : List Nat) : Nat × Step → List Nat
  | (_, .newRoot _) => roots ++ [roots.length]
  | (i, .fork) => roots ++ roots[i]?.toList
  | _ => roots

/-- For each context of a family that began with a single context, the position of the context
from which it descends by forks. -/
def roots (history : List (Nat × Step)) : List Nat := history.foldl rootsAfter [0]

/-- Every context has a store, and two contexts have the same store exactly if they have the same
root. -/
structure Rooted (s : Session) (roots : List Nat) : Prop where
  length_eq : roots.length = s.contexts.length
  root_lt : ∀ root ∈ roots, root < roots.length
  number_lt : ∀ i number, s.number? i = some number → number < s.stores.length
  number_eq_iff : ∀ i < roots.length, ∀ j < roots.length,
    s.number? i = s.number? j ↔ roots[i]? = roots[j]?

/-! ### Two contexts that are added -/

section Exchange

variable {s t t' u u' : Session} {p q : Option Nat} {c d : Context}

/-- The sessions differ only in the positions of their contexts. -/
structure SameUpTo (s : Session) (position : Equiv.Perm Nat) (t : Session) : Prop where
  length_eq : t.contexts.length = s.contexts.length
  context?_eq : ∀ i, t.context? (position i) = s.context? i
  shares_eq : ∀ i j, t.shares (position i) (position j) = s.shares i j

/-- The context with whose store a position goes, once the context at position `newest` has been
added, which goes with `peer` or with none. -/
def partner (newest : Nat) (peer : Option Nat) (k : Nat) : Option Nat :=
  if k = newest then peer else some k

/-- The session `t` has a context more than `s`, with the store of `peer` or with a store of its
own. -/
structure Adds (s t : Session) (peer : Option Nat) (c : Context) : Prop where
  length_eq : t.contexts.length = s.contexts.length + 1
  context?_eq : ∀ k, t.context? k = if k = s.contexts.length then some c else s.context? k
  shares_iff : ∀ k l, t.shares k l = true
    ↔ k = s.contexts.length ∧ l = s.contexts.length
      ∨ ∃ i ∈ partner s.contexts.length peer k, ∃ j ∈ partner s.contexts.length peer l,
        s.shares i j = true

/-- After two contexts have been added, each of them shares its store with itself, and apart from
this it shares its store with whom its partner does. -/
theorem Adds.shares_twice_iff (hc : s.Adds t p c) (hd : t.Adds u q d)
    (hq : ∀ i ∈ q, i ≠ s.contexts.length) (k l : Nat) :
  u.shares k l = true
    ↔ k = l ∧ (k = s.contexts.length ∨ k = s.contexts.length + 1)
      ∨ ∃ i ∈ (partner (s.contexts.length + 1) q k).bind (partner s.contexts.length p),
        ∃ j ∈ (partner (s.contexts.length + 1) q l).bind (partner s.contexts.length p),
          s.shares i j = true
  := by
  have hnewest : ∀ k, s.contexts.length ∈ partner (s.contexts.length + 1) q k
      ↔ k = s.contexts.length := by
    intro k
    rw [partner]
    split
    · rename_i hk
      constructor
      · intro hmem
        exact absurd rfl (hq _ hmem)
      · omega
    · rw [Option.mem_some_iff]
  rw [hd.shares_iff, hc.length_eq]
  simp only [hc.shares_iff]
  constructor
  · rintro (⟨rfl, rfl⟩ | ⟨i, hi, j, hj, ⟨rfl, rfl⟩ | ⟨i', hi', j', hj', hshares⟩⟩)
    · exact .inl ⟨rfl, .inr rfl⟩
    · rw [hnewest] at hi hj
      exact .inl ⟨hi.trans hj.symm, .inl hi⟩
    · exact .inr ⟨i', Option.mem_bind_iff.mpr ⟨i, hi, hi'⟩, j',
        Option.mem_bind_iff.mpr ⟨j, hj, hj'⟩, hshares⟩
  · rintro (⟨rfl, rfl | rfl⟩ | ⟨i', hi', j', hj', hshares⟩)
    · have hmem := (hnewest _).mpr rfl
      exact .inr ⟨_, hmem, _, hmem, .inl ⟨rfl, rfl⟩⟩
    · exact .inl ⟨rfl, rfl⟩
    · obtain ⟨i, hi, hi'⟩ := Option.mem_bind_iff.mp hi'
      obtain ⟨j, hj, hj'⟩ := Option.mem_bind_iff.mp hj'
      exact .inr ⟨i, hi, j, hj, .inr ⟨i', hi', j', hj', hshares⟩⟩

/-- What exchanging two successive positions does to a position. -/
theorem eq_or_eq_or_swap_eq (n k : Nat) :
  (k = n ∧ Equiv.swap n (n + 1) k = n + 1) ∨ (k = n + 1 ∧ Equiv.swap n (n + 1) k = n)
    ∨ k ≠ n ∧ k ≠ n + 1 ∧ Equiv.swap n (n + 1) k = k
  := by
  by_cases hk : k = n
  · rw [hk]
    exact .inl ⟨rfl, Equiv.swap_apply_left _ _⟩
  · by_cases hk' : k = n + 1
    · rw [hk']
      exact .inr (.inl ⟨rfl, Equiv.swap_apply_right _ _⟩)
    · exact .inr (.inr ⟨hk, hk', Equiv.swap_apply_of_ne_of_ne hk hk'⟩)

/-- Of two contexts that are added, neither being the partner of the other, each has the same
partner in either order. -/
theorem bind_partner_swap {n : Nat} (hp : ∀ i ∈ p, i ≠ n) (hq : ∀ i ∈ q, i ≠ n) (k : Nat) :
  (partner (n + 1) p (Equiv.swap n (n + 1) k)).bind (partner n q)
    = (partner (n + 1) q k).bind (partner n p)
  := by
  have hbind : ∀ o r : Option Nat, (∀ i ∈ o, i ≠ n) → o.bind (partner n r) = o := by
    intro o r ho
    cases o with
    | none => rfl
    | some i => exact if_neg (ho i rfl)
  obtain ⟨hk, hσ⟩ | ⟨hk, hσ⟩ | ⟨hk, hk', hσ⟩ := eq_or_eq_or_swap_eq n k
  · rw [hσ, hk, partner, if_pos rfl, hbind p q hp]
    simp [partner]
  · rw [hσ, hk, partner, partner, if_pos rfl, hbind q p hq]
    simp [partner]
  · rw [hσ]
    simp [partner, hk, hk']

/-- Two contexts that are added in either order. -/
theorem Adds.exchange
    (hc : s.Adds t p c) (hd : t.Adds u q d) (hd' : s.Adds t' q d) (hc' : t'.Adds u' p c)
    (hp : ∀ i ∈ p, i ≠ s.contexts.length) (hq : ∀ i ∈ q, i ≠ s.contexts.length) :
  u.SameUpTo (Equiv.swap s.contexts.length (s.contexts.length + 1)) u'
  := by
  constructor
  · rw [hc'.length_eq, hd'.length_eq, hd.length_eq, hc.length_eq]
  · intro k
    rw [hc'.context?_eq, hd'.context?_eq, hd.context?_eq, hc.context?_eq, hd'.length_eq,
      hc.length_eq]
    obtain ⟨hk, hσ⟩ | ⟨hk, hσ⟩ | ⟨hk, hk', hσ⟩ := eq_or_eq_or_swap_eq s.contexts.length k
    · simp [hk]
    · simp [hk]
    · simp [hk, hk', hσ]
  · intro k l
    rw [Bool.eq_iff_iff, hd'.shares_twice_iff hc' hp, hc.shares_twice_iff hd hq,
      bind_partner_swap hp hq, bind_partner_swap hp hq, EmbeddingLike.apply_eq_iff_eq]
    apply or_congr_left
    apply and_congr_right
    rintro rfl
    obtain ⟨hk, hσ⟩ | ⟨hk, hσ⟩ | ⟨hk, hk', hσ⟩ := eq_or_eq_or_swap_eq s.contexts.length k
    · simp [hk]
    · simp [hk]
    · simp [hk, hk', hσ]

end Exchange

/-! ### Rooted sessions -/

namespace Rooted

variable {s : Session} {roots : List Nat} {i j : Nat} {c : Context}

theorem ofContext (c : Context) :
  Rooted (ofContext c) [0]
  where
  length_eq := rfl
  root_lt root h := by
    rw [List.mem_singleton.mp h]
    apply Nat.one_pos
  number_lt i number h := by
    cases i with
    | zero =>
        obtain rfl := Option.some.inj h
        apply Nat.one_pos
    | succ i => cases h
  number_eq_iff i hi j hj := by
    rw [Nat.lt_one_iff.mp hi, Nat.lt_one_iff.mp hj]
    exact iff_of_true rfl rfl

/-- Every position of the family has a context. -/
theorem exists_context (h : Rooted s roots) (hi : i < s.contexts.length) :
  ∃ c, s.context? i = some c
  := by
  obtain ⟨⟨number, frame⟩, hget⟩ : ∃ context, s.contexts[i]? = some context :=
    ⟨_, List.getElem?_eq_getElem hi⟩
  have hlt : number < s.stores.length := by
    apply h.number_lt i
    rw [number?, hget]
    rfl
  exact ⟨{ frame with store := s.stores[number] },
    context?_eq_some_iff.mpr ⟨number, hget, List.getElem?_eq_getElem hlt⟩⟩

/-- Two contexts share their store if and only if they have the same root. -/
theorem shares_iff (h : Rooted s roots) (hi : i < s.contexts.length) (hj : j < s.contexts.length) :
  s.shares i j = true ↔ roots[i]? = roots[j]?
  := by
  obtain ⟨number, hnumber⟩ : ∃ number, s.number? i = some number := by
    rw [number?, List.getElem?_eq_getElem hi]
    exact ⟨_, rfl⟩
  rw [← h.number_eq_iff i (h.length_eq ▸ hi) j (h.length_eq ▸ hj), shares_iff_number?, hnumber]
  simp only [Option.some.injEq, exists_eq_left', eq_comm]

theorem update (h : Rooted s roots) (i : Nat) (c : Context) :
  Rooted (s.update i c) roots
  where
  length_eq := by rw [length_contexts_update, h.length_eq]
  root_lt := h.root_lt
  number_lt j number hj := by
    rw [number?_update] at hj
    rw [length_stores_update]
    apply h.number_lt j number hj
  number_eq_iff j hj k hk := by
    rw [number?_update, number?_update]
    apply h.number_eq_iff j hj k hk

/-- A context can be added if it has the store of a context exactly if it has its root. -/
theorem append (h : Rooted s roots) {stores : List Store} {number root : Nat} {frame : Frame}
    (hroot : root ≤ roots.length) (hnumber : number < s.stores.length + stores.length)
    (hiff : ∀ k < roots.length, s.number? k = some number ↔ roots[k]? = some root) :
  Rooted (s.append stores number frame) (roots ++ [root])
  where
  length_eq := by
    rw [Session.append, List.length_append, List.length_append, h.length_eq]
    rfl
  root_lt other hother := by
    rw [List.length_append, List.length_singleton]
    rcases List.mem_append.mp hother with hold | hnew
    · apply Nat.lt_succ_of_lt (h.root_lt other hold)
    · rw [List.mem_singleton.mp hnew]
      apply Nat.lt_succ_of_le hroot
  number_lt k other hother := by
    rw [number?_append] at hother
    rw [Session.append, List.length_append]
    split at hother
    · rw [← Option.some.inj hother]
      apply hnumber
    · apply Nat.lt_add_right _ (h.number_lt k other hother)
  number_eq_iff k hk l hl := by
    rw [List.length_append, List.length_singleton] at hk hl
    have hlength := h.length_eq
    have hget : ∀ m < roots.length + 1,
        (roots ++ [root])[m]? = if m = s.contexts.length then some root else roots[m]? := by
      intro m hm
      rw [← hlength]
      split
      · rename_i hlast
        rw [hlast, List.getElem?_concat_length]
      · apply List.getElem?_append_left
        omega
    rw [number?_append, number?_append, hget k hk, hget l hl]
    split
    · split
      · exact iff_of_true rfl rfl
      · rw [eq_comm, hiff l (by omega), eq_comm]
    · split
      · apply hiff k (by omega)
      · apply h.number_eq_iff k (by omega) l (by omega)

theorem addRoot (h : Rooted s roots) (limits : Limits) :
  Rooted (s.addRoot limits) (roots ++ [roots.length])
  := by
  rw [addRoot_eq]
  apply h.append (Nat.le_refl _) (Nat.lt_succ_self _)
  intro k hk
  apply iff_of_false
  · intro hnumber
    apply Nat.lt_irrefl _ (h.number_lt k _ hnumber)
  · intro hroot
    apply Nat.lt_irrefl _ (h.root_lt _ (List.mem_of_getElem? hroot))

theorem addFork (h : Rooted s roots) (hi : s.context? i = some c) :
  Rooted (s.addFork i) (roots ++ roots[i]?.toList)
  := by
  obtain ⟨number, hcontext, -⟩ := context?_eq_some_iff.mp hi
  have hnumber : s.number? i = some number := by
    rw [number?, hcontext]
    rfl
  obtain ⟨hlt, -⟩ := List.getElem?_eq_some_iff.mp hcontext
  rw [← h.length_eq] at hlt
  rw [addFork_eq hcontext, List.getElem?_eq_getElem hlt]
  apply h.append (Nat.le_of_lt (h.root_lt _ (List.getElem_mem hlt))) (h.number_lt i _ hnumber)
  intro k hk
  rw [← hnumber, ← List.getElem?_eq_getElem hlt]
  apply h.number_eq_iff k hk i hlt

theorem adds (h : Rooted s roots) {stores : List Store} {number : Nat} {peer : Option Nat}
    (hstore : (s.stores ++ stores)[number]? = some c.store)
    (hpeer : ∀ k, s.number? k = some number ↔ ∃ i ∈ peer, s.shares i k = true) :
  s.Adds (s.append stores number c.toFrame) peer c
  where
  length_eq := List.length_append
  context?_eq k := by
    split
    · rename_i hk
      rw [context?_eq_some_iff]
      refine ⟨number, ?_, hstore⟩
      rw [contexts_append, if_pos hk]
    · rename_i hk
      apply context?_congr
      · rw [contexts_append, if_neg hk]
      · intro m hm
        apply List.getElem?_append_left (h.number_lt k m hm)
  shares_iff k l := by
    rw [shares_iff_number?, number?_append, number?_append, partner, partner]
    split
    · rename_i hk
      split
      · rename_i hl
        exact iff_of_true ⟨number, rfl, rfl⟩ (.inl ⟨hk, hl⟩)
      · rename_i hl
        simp [hk, hl, hpeer]
    · rename_i hk
      split
      · rename_i hl
        simp [hk, hl, hpeer, s.shares_comm k]
      · simp [hk, shares_iff_number?]

end Rooted

/-! ### Steps of rooted sessions -/

section Steps

variable {s t : Session} {i j : Nat} {c : Context} {action : Step} {reply : Reply}

namespace Rooted

variable {roots : List Nat}

/-- Adding a context to a rooted family gives a family with one more context, which shares its
store with the context of the step or with none. -/
theorem adds_of_add? (h : Rooted s roots) (hi : s.context? i = some c)
    (hadd : action.add? s i = some t) :
  s.Adds t (action.peer? i) (action.added c)
  := by
  cases action with
  | newRoot limits =>
      obtain rfl := Option.some.inj hadd
      rw [addRoot_eq]
      apply h.adds (c := .root limits)
      · apply List.getElem?_concat_length
      · intro k
        apply iff_of_false
        · intro hk
          apply Nat.lt_irrefl _ (h.number_lt k _ hk)
        · nofun
  | fork =>
      obtain rfl := Option.some.inj hadd
      obtain ⟨number, hcontext, hstore⟩ := context?_eq_some_iff.mp hi
      have hnumber : s.number? i = some number := by
        rw [number?, hcontext]
        rfl
      rw [addFork_eq hcontext]
      apply h.adds (c := c)
      · rw [List.append_nil, hstore]
      · intro k
        simp [Step.peer?, shares_iff_number?, hnumber]
  | _ => cases hadd

/-- A rooted family stays rooted. -/
theorem step (h : Rooted s roots) (hstep : s.step? i action = some (reply, t)) :
  Rooted t (rootsAfter roots (i, action))
  := by
  obtain ⟨c, hi, ⟨-, hadd⟩ | ⟨c', heffect, rfl⟩⟩ := cases_of_step? hstep
  · cases action with
    | newRoot limits =>
        obtain rfl := Option.some.inj hadd
        apply h.addRoot
    | fork =>
        obtain rfl := Option.some.inj hadd
        apply h.addFork hi
    | _ => cases hadd
  · cases action with
    | newRoot limits => cases heffect
    | fork => cases heffect
    | _ => apply h.update

theorem run {history : List (Nat × Step)} {replies : List Reply} (h : Rooted s roots)
    (hrun : s.run? history = some (replies, t)) :
  Rooted t (history.foldl rootsAfter roots)
  := by
  induction history generalizing s roots replies with
  | nil =>
      obtain ⟨-, rfl⟩ := Prod.mk.inj (Option.some.inj hrun)
      apply h
  | cons first rest ih =>
      obtain ⟨i, action⟩ := first
      obtain ⟨⟨reply, u⟩, hstep, hmap⟩ := Option.bind_eq_some_iff.mp hrun
      obtain ⟨⟨others, v⟩, hrest, hsame⟩ := Option.map_eq_some_iff.mp hmap
      obtain ⟨-, rfl⟩ := Prod.mk.inj hsame
      apply ih (h.step hstep) hrest

/-- A step does nothing to a context with another root. -/
theorem undisturbed (h : Rooted s roots) (hstep : s.step? i action = some (reply, t))
    (hj : j < s.contexts.length) (hroots : roots[i]? ≠ roots[j]?) :
  t.context? j = s.context? j ∧ t.shares j = s.shares j
  := by
  have hij : i ≠ j := by
    rintro rfl
    exact hroots rfl
  obtain ⟨c, hi, ⟨-, hadd⟩ | ⟨c', -, rfl⟩⟩ := cases_of_step? hstep
  · have hadds := h.adds_of_add? hi hadd
    have hnewest := Nat.ne_of_lt hj
    constructor
    · rw [hadds.context?_eq, if_neg hnewest]
    · funext k
      rw [Bool.eq_iff_iff, hadds.shares_iff, partner, partner, if_neg hnewest]
      split
      · rename_i hk
        apply iff_of_false
        · rintro (⟨hlast, -⟩ | ⟨_, ⟨⟩, l, hl, hshares⟩)
          · exact hnewest hlast
          · obtain rfl := Step.eq_of_mem_peer? hl
            rw [h.shares_iff hj (lt_length_of_context? hi)] at hshares
            exact hroots hshares.symm
        · rw [shares_iff_number?]
          rintro ⟨number, -, hnumber⟩
          rw [number?, List.getElem?_eq_none (Nat.le_of_eq hk.symm)] at hnumber
          cases hnumber
      · simp [hnewest]
  · have hnumber : s.number? i ≠ s.number? j := by
      intro hsame
      have hlt : i < roots.length := h.length_eq ▸ lt_length_of_context? hi
      exact hroots ((h.number_eq_iff i hlt j (h.length_eq ▸ hj)).mp hsame)
    constructor
    · apply context?_congr (contexts_update_of_ne hij c')
      intro number hj
      apply stores_update_of_ne
      rw [← hj]
      apply hnumber
    · funext k
      rw [Bool.eq_iff_iff, shares_iff_number?, shares_iff_number?]
      simp only [number?_update]

/-- Adding a context and replacing another one can be exchanged. -/
theorem add?_update (h : Rooted s roots) (hi : s.context? i = some c) (hj : j < s.contexts.length)
    (hij : i ≠ j) (d : Context) :
  action.add? (s.update j d) i = (action.add? s i).map fun t => t.update j d
  := by
  obtain ⟨⟨m, own⟩, hown⟩ : ∃ context, s.contexts[j]? = some context :=
    ⟨_, List.getElem?_eq_getElem hj⟩
  have hnumber : s.number? j = some m := by
    rw [number?, hown]
    rfl
  have happend := update_append hnumber (h.number_lt j m hnumber)
  cases action with
  | newRoot limits =>
      rw [Step.add?, Step.add?, addRoot_eq, addRoot_eq, Option.map_some, happend,
        length_stores_update]
  | fork =>
      obtain ⟨number, hcontext, -⟩ := context?_eq_some_iff.mp hi
      have hcontext' := (contexts_update_of_ne hij.symm d).trans hcontext
      rw [Step.add?, Step.add?, addFork_eq hcontext, addFork_eq hcontext', Option.map_some, happend]
  | _ => rfl

end Rooted

end Steps

/-! ### Isolation -/

/-- The contexts of a family are isolated from each other but for the stores that they share. -/
structure Isolated (s : Session) (roots : List Nat) : Prop where
  exists_context : ∀ i < s.contexts.length, ∃ c, s.context? i = some c
  /-- Exactly the contexts with the same root share their store. -/
  shares_iff : ∀ i < s.contexts.length, ∀ j < s.contexts.length,
    s.shares i j = true ↔ roots[i]? = roots[j]?
  /-- Contexts with the same root see the same global variables and the same functions. -/
  store_eq : ∀ i j c d, s.context? i = some c → s.context? j = some d → roots[i]? = roots[j]? →
    c.store = d.store
  /-- A step on a context leaves what the others have of their own as it is, and it leaves
  everything of a context with another root as it is. -/
  undisturbed : ∀ i action reply t, s.step? i action = some (reply, t) →
    ∀ j d, j ≠ i → s.context? j = some d →
      ∃ d', t.context? j = some d' ∧ d'.toFrame = d.toFrame
        ∧ (roots[i]? ≠ roots[j]? → d'.store = d.store)
  /-- Two steps on contexts with different roots can be exchanged. -/
  exchange : ∀ i j a b x y t u, s.step? i a = some (x, t) → t.step? j b = some (y, u) →
    j < s.contexts.length → roots[i]? ≠ roots[j]? → ¬ (a.grows = true ∧ b.grows = true) →
      ∃ t', s.step? j b = some (y, t') ∧ t'.step? i a = some (x, u)
  /-- If both add a context, the two new contexts exchange their positions. -/
  exchange_new : ∀ i j a b x y t u, s.step? i a = some (x, t) → t.step? j b = some (y, u) →
    j < s.contexts.length → roots[i]? ≠ roots[j]? → a.grows = true ∧ b.grows = true →
      x = .context s.contexts.length ∧ y = .context (s.contexts.length + 1)
        ∧ ∃ t' u', s.step? j b = some (x, t') ∧ t'.step? i a = some (y, u')
          ∧ u.SameUpTo (Equiv.swap s.contexts.length (s.contexts.length + 1)) u'

namespace Rooted

variable {s t u : Session} {roots : List Nat} {i j : Nat} {c : Context} {a b : Step}
  {x y : Reply}

theorem exchange (h : Rooted s roots) (hfirst : s.step? i a = some (x, t))
    (hsecond : t.step? j b = some (y, u)) (hj : j < s.contexts.length)
    (hroots : roots[i]? ≠ roots[j]?) (hgrow : ¬ (a.grows = true ∧ b.grows = true)) :
  ∃ t', s.step? j b = some (y, t') ∧ t'.step? i a = some (x, u)
  := by
  have hij : i ≠ j := by
    rintro rfl
    exact hroots rfl
  obtain ⟨d, hd, hb⟩ := cases_of_step? hsecond
  obtain ⟨hsame, hshares⟩ := h.undisturbed hfirst hj hroots
  rw [hsame] at hd
  rw [hshares] at hb
  obtain ⟨c, hc, ha⟩ := cases_of_step? hfirst
  have hi := lt_length_of_context? hc
  obtain ⟨rfl, hadd⟩ | ⟨c', heffect, rfl⟩ := ha
  · obtain ⟨rfl, hadd'⟩ | ⟨d', heffect', rfl⟩ := hb
    · exact absurd ⟨Step.grows_iff.mpr ⟨t, hadd⟩, Step.grows_iff.mpr ⟨u, hadd'⟩⟩ hgrow
    · have hstep := step?_of_effect? hd heffect' (not_aborts_of_step? hsecond)
      obtain ⟨hcontext, -⟩ := h.undisturbed hstep hi hroots.symm
      refine ⟨_, hstep, ?_⟩
      rw [step?_of_add? (hcontext.trans hc) (t := t.update j d'), length_contexts_update]
      rw [h.add?_update hc hj hij, hadd, Option.map_some]
  · obtain ⟨rfl, hadd'⟩ | ⟨d', heffect', rfl⟩ := hb
    · rw [h.add?_update hd hi hij.symm] at hadd'
      obtain ⟨t', hadded, rfl⟩ := Option.map_eq_some_iff.mp hadd'
      have hstep := step?_of_add? hd hadded
      obtain ⟨hcontext, hshares'⟩ := h.undisturbed hstep hi hroots.symm
      rw [length_contexts_update]
      refine ⟨t', hstep, ?_⟩
      apply step?_of_effect? (hcontext.trans hc) _ (not_aborts_of_step? hfirst)
      rw [hshares', heffect]
    · have hstep := step?_of_effect? hd heffect' (not_aborts_of_step? hsecond)
      obtain ⟨hcontext, hshares'⟩ := h.undisturbed hstep hi hroots.symm
      refine ⟨_, hstep, ?_⟩
      rw [update_comm hij]
      · apply step?_of_effect? (hcontext.trans hc) _ (not_aborts_of_step? hfirst)
        rw [hshares', heffect]
      · intro hnumber
        exact hroots ((h.number_eq_iff i (h.length_eq ▸ hi) j (h.length_eq ▸ hj)).mp hnumber)

theorem exchange_new (h : Rooted s roots) (hfirst : s.step? i a = some (x, t))
    (hsecond : t.step? j b = some (y, u)) (hj : j < s.contexts.length)
    (hroots : roots[i]? ≠ roots[j]?) (hgrow : a.grows = true ∧ b.grows = true) :
  x = .context s.contexts.length ∧ y = .context (s.contexts.length + 1)
    ∧ ∃ t' u', s.step? j b = some (x, t') ∧ t'.step? i a = some (y, u')
      ∧ u.SameUpTo (Equiv.swap s.contexts.length (s.contexts.length + 1)) u'
  := by
  obtain ⟨c, hc, rfl, hadd⟩ := add?_of_grows hfirst hgrow.1
  obtain ⟨d, hd, rfl, hadd'⟩ := add?_of_grows hsecond hgrow.2
  have hi := lt_length_of_context? hc
  -- The same steps in the other order.
  have hd' : s.context? j = some d := (h.undisturbed hfirst hj hroots).1.symm.trans hd
  obtain ⟨t', hother⟩ := Step.grows_iff.mp hgrow.2
  have hfirst' := step?_of_add? hd' hother
  have hc' : t'.context? i = some c := (h.undisturbed hfirst' hi hroots.symm).1.trans hc
  obtain ⟨u', hother'⟩ := Step.grows_iff.mp hgrow.1
  have hsecond' := step?_of_add? hc' hother'
  have hadds := h.adds_of_add? hc hadd
  have hadds' := h.adds_of_add? hd' hother
  refine ⟨rfl, by rw [hadds.length_eq], t', u', hfirst', ?_, ?_⟩
  · rw [hsecond', hadds'.length_eq, hadds.length_eq]
  · apply hadds.exchange ((h.step hfirst).adds_of_add? hd hadd') hadds'
      ((h.step hfirst').adds_of_add? hc' hother')
    · intro k hk
      rw [Step.eq_of_mem_peer? hk]
      apply Nat.ne_of_lt hi
    · intro k hk
      rw [Step.eq_of_mem_peer? hk]
      apply Nat.ne_of_lt hj

/-- The contexts of a rooted family are isolated. -/
theorem isolated (h : Rooted s roots) :
  Isolated s roots
  where
  exists_context i hi := h.exists_context hi
  shares_iff i hi j hj := h.shares_iff hi hj
  store_eq i j c d hi hj hroots := by
    have hshares := (h.shares_iff (lt_length_of_context? hi) (lt_length_of_context? hj)).mpr hroots
    obtain ⟨number, hnumber, hnumber'⟩ := shares_iff_number?.mp hshares
    obtain ⟨m, hcontext, hstore⟩ := context?_eq_some_iff.mp hi
    obtain ⟨n, hcontext', hstore'⟩ := context?_eq_some_iff.mp hj
    rw [number?, hcontext, Option.map_some, Option.some.injEq] at hnumber
    rw [number?, hcontext', Option.map_some, Option.some.injEq] at hnumber'
    subst hnumber
    subst hnumber'
    exact Option.some.inj (hstore.symm.trans hstore')
  undisturbed i action reply t hstep j d hij hd := by
    have hj := lt_length_of_context? hd
    have hsame := contexts_step? hstep hj hij.symm
    obtain ⟨number, hcontext, -⟩ := context?_eq_some_iff.mp hd
    obtain ⟨d', hd'⟩ : ∃ d', t.context? j = some d' := by
      apply (h.step hstep).exists_context
      exact (List.getElem?_eq_some_iff.mp (hsame.trans hcontext)).1
    obtain ⟨number', hcontext', -⟩ := context?_eq_some_iff.mp hd'
    rw [hsame, hcontext] at hcontext'
    obtain ⟨-, hframe⟩ := Prod.mk.inj (Option.some.inj hcontext')
    refine ⟨d', hd', hframe.symm, fun hroots => ?_⟩
    rw [(h.undisturbed hstep hj hroots).1, hd] at hd'
    rw [Option.some.inj hd']
  exchange i j a b x y t u := h.exchange
  exchange_new i j a b x y t u := h.exchange_new

end Rooted

/-- After any history of a family, its contexts are isolated from each other but for the stores
that those with the same root share. -/
theorem contexts_isolated {c : Context} {history : List (Nat × Step)} {replies : List Reply}
    {s : Session} (h : (ofContext c).run? history = some (replies, s)) :
  Isolated s (roots history)
  := ((Rooted.ofContext c).run h).isolated

/-- A fork sees what is defined in the context from which it is forked, and another root does
not. -/
theorem contexts_isolated_of_fork :
  ∃ (history : List (Nat × Step)) (replies : List Reply) (s : Session),
    (ofContext (.root .standard)).run? history = some (replies, s)
      ∧ s.shares 0 1 = true ∧ s.shares 0 2 = false ∧ Isolated s (roots history)
      ∧ ((s.context? 1).map fun c => c.hasGlobal "x") = some true
      ∧ ((s.context? 2).map fun c => c.hasGlobal "x") = some false
  := by
  let history : List (Nat × Step) :=
    [(0, .fork), (1, .newRoot .standard), (0, .define "x" (.constant (.integer 1)))]
  have hrun : (ofContext (.root .standard)).run? history = some (_, _) := rfl
  exact ⟨history, _, _, hrun, rfl, rfl, contexts_isolated hrun, rfl, rfl⟩

end Stencil.Session
