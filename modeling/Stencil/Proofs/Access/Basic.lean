import Stencil.Evaluation

/-!
# Accesses to names

What a run does with names is a list of accesses: a variable is read, bound or defined, or a
function is registered, in the environment of some context.  The log of a store lists the accesses
of all contexts that have it, in the order in which they happen, so that each one finds the store as
the one before has left it (`Leads`).

A computed variable gets the number of its counter when it is allocated.  The list of the computed
variables that are known, because they have been allocated so far, says which one a counter belongs
to, and in a sound environment all bindings agree with it (`Environment.Sound`).  A log keeps
environments sound: that it leads from one state to another is `Carries`.
-/

namespace Stencil

/-! ### Computed variables and their counters -/

/-- The values of the variable if it is computed, as the variable that is allocated for it. -/
def Variable.allocated : Variable → List (Nat → Value)
  | constant _ => []
  | computed values => [values]

/-- The binding is a constant, or has the values and the counter of one of the computed
variables. -/
def Binding.From (known : List (Nat → Value)) : Binding → Prop
  | constant _ => True
  | computed values counter => known[counter]? = some values

/-- All bindings in the table are constants or belong to the computed variables. -/
def Table.From (known : List (Nat → Value)) (t : Table Binding) : Prop :=
  ∀ name b, t.get? name = some b → b.From known

/-- Every computed variable has a counter, and the global variables belong to them. -/
structure Store.Sound (known : List (Nat → Value)) (s : Store) : Prop where
  size : s.reads.size = known.length
  globals : s.globals.From known

/-- Every computed variable has a counter, and all names stand for them or for constants. -/
structure Environment.Sound (known : List (Nat → Value)) (e : Environment) : Prop where
  store : e.store.Sound known
  locals : e.locals.From known

section Sound

variable {known more : List (Nat → Value)}

theorem Binding.From.append {b : Binding} (h : b.From known) (more : List (Nat → Value)) :
  b.From (known ++ more)
  := by
  cases b with
  | constant v => trivial
  | computed values counter =>
      obtain ⟨hlt, hvalues⟩ := List.getElem?_eq_some_iff.mp h
      rw [From, List.getElem?_append_left hlt]
      apply h

namespace Table.From

theorem empty (known : List (Nat → Value)) :
  From known {}
  := by
  intro name b hb
  cases hb

theorem append {t : Table Binding} (h : t.From known) (more : List (Nat → Value)) :
  t.From (known ++ more)
  := fun name b hb => (h name b hb).append more

theorem insert {t : Table Binding} (h : t.From known) (name : String) {b : Binding}
    (hb : b.From known) :
  (t.insert name b).From known
  := by
  intro other b' hb'
  rw [get?_insert] at hb'
  split at hb'
  · obtain rfl := Option.some.inj hb'
    apply hb
  · apply h other b' hb'

end Table.From

namespace Store.Sound

variable {s : Store}

theorem empty :
  Store.empty.Sound []
  := ⟨rfl, .empty []⟩

/-- A computed variable is allocated with the next counter. -/
theorem allocate (h : s.Sound known) (v : Variable) :
  (s.allocate v).1.From (known ++ v.allocated)
    ∧ (s.allocate v).2.Sound (known ++ v.allocated)
  := by
  cases v with
  | constant w =>
      rw [Variable.allocated, List.append_nil]
      exact ⟨trivial, h⟩
  | computed values =>
      refine ⟨?_, ?_, h.globals.append _⟩
      · rw [Store.allocate, Binding.From, h.size, Variable.allocated, List.getElem?_concat_length]
      · rw [Store.allocate, Array.size_push, h.size, Variable.allocated, List.length_append,
          List.length_singleton]

theorem read (h : s.Sound known) (b : Binding) :
  (s.read b).2.Sound known
  := by
  cases b with
  | constant v => exact h
  | computed values counter => exact ⟨(Array.size_modify ..).trans h.size, h.globals⟩

theorem define (h : s.Sound known) (name : String) (v : Variable) :
  (s.define name v).Sound (known ++ v.allocated)
  := by
  obtain ⟨hb, hs⟩ := h.allocate v
  exact ⟨hs.size, hs.globals.insert name hb⟩

theorem register (h : s.Sound known) (name : String) (f : Function) :
  (s.register name f).2.Sound known
  := by
  rw [Store.register]
  split
  · exact h
  · exact ⟨h.size, h.globals⟩

end Store.Sound

namespace Environment.Sound

variable {e : Environment}

theorem resolve (h : e.Sound known) {name : String} {b : Binding}
    (hb : e.resolve? name = some b) :
  b.From known
  := by
  rw [resolve?] at hb
  split at hb
  · rename_i hglobal
    obtain rfl := Option.some.inj hb
    apply h.store.globals name _ hglobal
  · apply h.locals name b hb

theorem read (h : e.Sound known) (name : String) :
  (e.read name).2.Sound known
  := by
  rw [Environment.read]
  cases e.resolve? name with
  | none => exact h
  | some b => exact ⟨h.store.read b, h.locals⟩

theorem bind (h : e.Sound known) (name : String) (v : Variable) :
  (e.bind name v).Sound (known ++ v.allocated)
  := by
  obtain ⟨hb, hs⟩ := h.store.allocate v
  exact ⟨hs, (h.locals.append _).insert name hb⟩

end Environment.Sound

end Sound

/-! ### Accesses -/

/-- What is done with a name. -/
inductive Deed where
  | read (name : String)
  | bind (name : String) (v : Variable)
  | define (name : String) (v : Variable)
  | register (name : String) (f : Function)

/-- The computed variables that are allocated. -/
def Deed.allocated : Deed → List (Nat → Value)
  | read _ => []
  | bind _ v => v.allocated
  | define _ v => v.allocated
  | register _ _ => []

/-- Something that is done with a name, and the environment in which it is done. -/
structure Access where
  environment : Environment
  deed : Deed

/-- The environment afterwards. -/
def Access.after (a : Access) : Environment :=
  match a.deed with
  | .read name => (a.environment.read name).2
  | .bind name v => a.environment.bind name v
  | .define name v => { a.environment with store := a.environment.store.define name v }
  | .register name f => { a.environment with store := (a.environment.store.register name f).2 }

theorem Access.sound_after {a : Access} {known : List (Nat → Value)}
    (h : a.environment.Sound known) :
  a.after.Sound (known ++ a.deed.allocated)
  := by
  obtain ⟨e, deed⟩ := a
  cases deed with
  | read name =>
      rw [Deed.allocated, List.append_nil]
      apply h.read name
  | bind name v => apply h.bind name v
  | define name v => exact ⟨h.store.define name v, h.locals.append _⟩
  | register name f =>
      rw [Deed.allocated, List.append_nil]
      exact ⟨h.store.register name f, h.locals⟩

/-! ### Logs -/

/-- The computed variables that are allocated in a log. -/
def allocated (log : List Access) : List (Nat → Value) := log.flatMap fun a => a.deed.allocated

@[simp]
theorem allocated_append (log log' : List Access) :
  allocated (log ++ log') = allocated log ++ allocated log'
  := List.flatMap_append

/-- The log leads from one store to the other: each access finds the store that the one before has
left, in an environment that is sound for the computed variables allocated so far. -/
inductive Leads : List (Nat → Value) → Store → List Access → Store → Prop where
  | nil (known : List (Nat → Value)) (s : Store) : Leads known s [] s
  | cons {known : List (Nat → Value)} (a : Access) {rest : List Access} {s : Store}
      (h : a.environment.Sound known)
      (hrest : Leads (known ++ a.deed.allocated) a.after.store rest s) :
      Leads known a.environment.store (a :: rest) s

namespace Leads

variable {known : List (Nat → Value)} {log log' : List Access} {s s' s'' : Store}

theorem append (h : Leads known s log s') (h' : Leads (known ++ allocated log) s' log' s'') :
  Leads known s (log ++ log') s''
  := by
  induction h with
  | nil known s =>
      rw [allocated, List.flatMap_nil, List.append_nil] at h'
      apply h'
  | cons a ha _ ih =>
      apply cons a ha
      apply ih
      rw [List.append_assoc]
      apply h'

/-- Between two parts of a log there is a store. -/
theorem of_append (h : Leads known s (log ++ log') s'') :
  ∃ s', Leads known s log s' ∧ Leads (known ++ allocated log) s' log' s''
  := by
  induction log generalizing known s with
  | nil =>
      refine ⟨s, .nil known s, ?_⟩
      rw [allocated, List.flatMap_nil, List.append_nil]
      apply h
  | cons a rest ih =>
      cases h with
      | cons _ ha hrest =>
          obtain ⟨s', hfirst, hlast⟩ := ih hrest
          refine ⟨s', .cons a ha hfirst, ?_⟩
          rw [List.append_assoc] at hlast
          apply hlast

/-- An access in the middle of a log finds the store that those before it have left. -/
theorem of_append_cons {before after : List Access} {a : Access}
    (h : Leads known s (before ++ a :: after) s') :
  Leads known s before a.environment.store
    ∧ Leads (known ++ allocated before ++ a.deed.allocated) a.after.store after s'
  := by
  obtain ⟨_, hbefore, hrest⟩ := h.of_append
  cases hrest with
  | cons _ _ hafter => exact ⟨hbefore, hafter⟩

end Leads

/-- From every sound state, the log leads to another state that is sound as well. -/
def Carries {σ : Type} (sound : List (Nat → Value) → σ → Prop) (store : σ → Store) (s : σ)
    (log : List Access) (s' : σ) : Prop :=
  ∀ known, sound known s →
    Leads known (store s) log (store s') ∧ sound (known ++ allocated log) s'

namespace Carries

variable {σ : Type} {sound : List (Nat → Value) → σ → Prop} {store : σ → Store} {s s' s'' : σ}
  {log log' : List Access}

/-- Nothing is done with names. -/
theorem nil (hstore : store s' = store s)
    (hsound : ∀ known, sound known s → sound known s') :
  Carries sound store s [] s'
  := by
  intro known hs
  rw [hstore, allocated, List.flatMap_nil, List.append_nil]
  exact ⟨.nil known _, hsound known hs⟩

theorem append (h : Carries sound store s log s') (h' : Carries sound store s' log' s'') :
  Carries sound store s (log ++ log') s''
  := by
  intro known hs
  obtain ⟨hleads, hs'⟩ := h known hs
  obtain ⟨hleads', hs''⟩ := h' _ hs'
  rw [allocated_append, ← List.append_assoc]
  exact ⟨hleads.append hleads', hs''⟩

end Carries

/-- The log leads from one environment to the other. -/
abbrev Environment.Carries : Environment → List Access → Environment → Prop :=
  Stencil.Carries Environment.Sound Environment.store

theorem Access.carries (a : Access) :
  a.environment.Carries [a] a.after
  := by
  intro known h
  have hafter := a.sound_after h
  rw [allocated, List.flatMap_singleton]
  exact ⟨.cons a h (.nil _ _), hafter⟩

end Stencil
