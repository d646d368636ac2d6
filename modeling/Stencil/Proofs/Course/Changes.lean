import Stencil.Proofs.Course.Agreement
import Stencil.Proofs.Course.Induction

/-!
# What a run changes

The events of a course account for everything that it changes.  What a name stands for
globally or locally and what function it names can only change by an event about that name,
names that are bound globally or registered stay so, and without any event about names no
variable counts a read (`Context.changedBy_course`).
-/

namespace Stencil

/-- The events account for what is different between two stores. -/
structure Store.ChangedBy (events : List Event) (s s' : Store) : Prop where
  globals : ∀ name, .defines name ∉ events → s'.globals.get? name = s.globals.get? name
  defined : ∀ name, .defines name ∈ events → s'.globals.contains name = true
  functions : ∀ name, .registers name ∉ events → s'.functions.get? name = s.functions.get? name
  registered : ∀ name, .registers name ∈ events → s'.functions.contains name = true
  reads : (∀ e ∈ events, e.isPoint = false) → s'.reads = s.reads

/-- The events account for what is different between two environments. -/
structure Environment.ChangedBy (events : List Event) (e e' : Environment) : Prop where
  store : Store.ChangedBy events e.store e'.store
  locals : ∀ name, .binds name ∉ events → e'.locals.get? name = e.locals.get? name

/-- The events account for what is different between the contexts of a body, where there
may be forks in addition. -/
structure Activation.ChangedBy (events : List Event) (a a' : Activation) : Prop where
  store : Store.ChangedBy events a.store a'.store
  length_le : a.locals.length ≤ a'.locals.length
  locals : ∀ name, .binds name ∉ events → ∀ context < a.locals.length,
    (a'.environment context).locals.get? name = (a.environment context).locals.get? name

theorem Event.mem_of_isPoint {e : Event} {events others : List Event} (he : e.isPoint = true)
    (hothers : ∀ e ∈ others, e.isPoint = false) (h : e ∈ events ++ others) :
  e ∈ events
  := by
  apply (List.mem_append.mp h).resolve_right
  intro hmem
  rw [hothers e hmem] at he
  contradiction

/-! ### Stores -/

namespace Store

theorem globals_read (s : Store) (b : Binding) :
  (s.read b).2.globals = s.globals
  := by cases b <;> rfl

theorem functions_read (s : Store) (b : Binding) :
  (s.read b).2.functions = s.functions
  := by cases b <;> rfl

theorem globals_allocate (s : Store) (v : Variable) :
  (s.allocate v).2.globals = s.globals
  := by cases v <;> rfl

theorem functions_allocate (s : Store) (v : Variable) :
  (s.allocate v).2.functions = s.functions
  := by cases v <;> rfl

namespace ChangedBy

variable {s s' s'' : Store} {events others : List Event}

theorem refl (s : Store) :
  ChangedBy [] s s
  where
  globals _ _ := rfl
  defined _ h := absurd h List.not_mem_nil
  functions _ _ := rfl
  registered _ h := absurd h List.not_mem_nil
  reads _ := rfl

/-- The start and the end of an activity change nothing. -/
theorem of_not_point {e : Event} (he : e.isPoint = false) (s : Store) :
  ChangedBy [e] s s
  where
  globals _ _ := rfl
  defined name h := by
    obtain rfl := List.mem_singleton.mp h
    contradiction
  functions _ _ := rfl
  registered name h := by
    obtain rfl := List.mem_singleton.mp h
    contradiction
  reads _ := rfl

theorem trans (h : ChangedBy events s s') (h' : ChangedBy others s' s'') :
  ChangedBy (events ++ others) s s''
  where
  globals name hname := by
    rw [List.mem_append, not_or] at hname
    rw [h'.globals name hname.2, h.globals name hname.1]
  defined name hname := by
    by_cases hothers : .defines name ∈ others
    · apply h'.defined name hothers
    · have hevents := (List.mem_append.mp hname).resolve_right hothers
      rw [Table.contains, h'.globals name hothers]
      apply h.defined name hevents
  functions name hname := by
    rw [List.mem_append, not_or] at hname
    rw [h'.functions name hname.2, h.functions name hname.1]
  registered name hname := by
    by_cases hothers : .registers name ∈ others
    · apply h'.registered name hothers
    · have hevents := (List.mem_append.mp hname).resolve_right hothers
      rw [Table.contains, h'.functions name hothers]
      apply h.registered name hevents
  reads hpoints := by
    obtain ⟨hevents, hothers⟩ := List.forall_mem_append.mp hpoints
    rw [h'.reads hothers, h.reads hevents]

/-- An event that neither binds a name globally nor registers a function may only count
reads. -/
theorem of_same_tables {e : Event} (he : e.isPoint = true) (hdefines : ∀ name, e ≠ .defines name)
    (hregisters : ∀ name, e ≠ .registers name) (hglobals : s'.globals = s.globals)
    (hfunctions : s'.functions = s.functions) :
  ChangedBy [e] s s'
  where
  globals _ _ := by rw [hglobals]
  defined name h := absurd (List.mem_singleton.mp h).symm (hdefines name)
  functions _ _ := by rw [hfunctions]
  registered name h := absurd (List.mem_singleton.mp h).symm (hregisters name)
  reads h := by
    rw [h e List.mem_cons_self] at he
    contradiction

theorem define (s : Store) (name : String) (v : Variable) :
  ChangedBy [.defines name] s (s.define name v)
  where
  globals other h := by
    have hother : other ≠ name := by simpa using h
    simp [Store.define, globals_allocate, hother]
  defined other h := by
    obtain rfl : other = name := by simpa using h
    simp [Store.define]
  functions _ _ := by simp [Store.define, functions_allocate]
  registered _ h := by simp at h
  reads h := absurd (h _ List.mem_cons_self) nofun

theorem register (s : Store) (name : String) (f : Function) :
  ChangedBy [.registers name] s (s.register name f).2
  := by
  unfold Store.register
  split
  · rename_i hcontains
    constructor
    · simp
    · simp
    · simp
    · intro other h
      obtain rfl : other = name := by simpa using h
      apply hcontains
    · simp
  · constructor
    · simp
    · simp
    · intro other h
      have hother : other ≠ name := by simpa using h
      simp [hother]
    · intro other h
      obtain rfl : other = name := by simpa using h
      simp
    · simp

/-- A name is bound globally afterwards if and only if it was before or was bound by an
event. -/
theorem contains_globals (h : ChangedBy events s s') (name : String) :
  s'.globals.contains name = true
    ↔ s.globals.contains name = true ∨ .defines name ∈ events
  := by
  by_cases hname : .defines name ∈ events
  · simp [h.defined name hname, hname]
  · rw [Table.contains, h.globals name hname]
    simp [hname, Table.contains]

/-- Events that only start and end activities account for nothing. -/
theorem of_append (h : ChangedBy (events ++ others) s s')
    (hothers : ∀ e ∈ others, e.isPoint = false) :
  ChangedBy events s s'
  where
  globals name hname := h.globals name fun hmem =>
    hname (Event.mem_of_isPoint rfl hothers hmem)
  defined name hname := h.defined name (List.mem_append_left others hname)
  functions name hname := h.functions name fun hmem =>
    hname (Event.mem_of_isPoint rfl hothers hmem)
  registered name hname := h.registered name (List.mem_append_left others hname)
  reads hevents := h.reads (List.forall_mem_append.mpr ⟨hevents, hothers⟩)

end ChangedBy

end Store

/-! ### Environments -/

theorem Environment.functions_read (e : Environment) (name : String) :
  (e.read name).2.store.functions = e.store.functions
  := by
  rw [read]
  cases e.resolve? name with
  | none => rfl
  | some b => apply Store.functions_read

namespace Environment.ChangedBy

variable {e e' e'' : Environment} {events others : List Event}

theorem refl (e : Environment) :
  ChangedBy [] e e
  := ⟨Store.ChangedBy.refl e.store, fun _ _ => rfl⟩

theorem trans (h : ChangedBy events e e') (h' : ChangedBy others e' e'') :
  ChangedBy (events ++ others) e e''
  where
  store := h.store.trans h'.store
  locals name hname := by
    rw [List.mem_append, not_or] at hname
    rw [h'.locals name hname.2, h.locals name hname.1]

theorem of_not_point {event : Event} (hevent : event.isPoint = false) (e : Environment) :
  ChangedBy [event] e e
  := ⟨Store.ChangedBy.of_not_point hevent e.store, fun _ _ => rfl⟩

theorem read (e : Environment) (name : String) :
  ChangedBy [.reads name] e (e.read name).2
  := by
  rw [Environment.read]
  split
  · rename_i b _
    constructor
    · refine Store.ChangedBy.of_same_tables rfl ?_ ?_ (e.store.globals_read b)
        (e.store.functions_read b)
      · exact fun _ h => Event.noConfusion h
      · exact fun _ h => Event.noConfusion h
    · exact fun _ _ => rfl
  · constructor
    · refine Store.ChangedBy.of_same_tables rfl ?_ ?_ rfl rfl
      · exact fun _ h => Event.noConfusion h
      · exact fun _ h => Event.noConfusion h
    · exact fun _ _ => rfl

theorem bind (e : Environment) (name : String) (v : Variable) :
  ChangedBy [.binds name] e (e.bind name v)
  where
  store := Store.ChangedBy.of_same_tables rfl nofun nofun (e.store.globals_allocate v)
    (e.store.functions_allocate v)
  locals other h := by
    have hother : other ≠ name := by simpa using h
    simp [Environment.bind, hother]

/-- Events that only start and end activities account for nothing. -/
theorem of_append (h : ChangedBy (events ++ others) e e')
    (hothers : ∀ event ∈ others, event.isPoint = false) :
  ChangedBy events e e'
  where
  store := h.store.of_append hothers
  locals name hname := h.locals name fun hmem =>
    hname (Event.mem_of_isPoint rfl hothers hmem)

end Environment.ChangedBy

/-! ### Contexts of a body -/

namespace Activation

theorem environment_update (a : Activation) (context other : Nat) (env : Environment)
    (h : other < a.locals.length) :
  ((a.update context env).environment other).locals
    = if context = other then env.locals else (a.environment other).locals
  := by
  simp only [environment, update, List.getD_eq_getElem?_getD, List.getElem?_set]
  split
  · rename_i hsame
    rw [hsame, if_pos h]
    rfl
  · rfl

theorem environment_fork (a : Activation) (context other : Nat) (h : other < a.locals.length) :
  ((a.fork context).environment other).locals = (a.environment other).locals
  := by simp [environment, fork, List.getD_eq_getElem?_getD, List.getElem?_append_left h]

namespace ChangedBy

variable {a a' a'' : Activation} {events others : List Event}

theorem refl (a : Activation) :
  ChangedBy [] a a
  := ⟨Store.ChangedBy.refl a.store, Nat.le_refl _, fun _ _ _ _ => rfl⟩

theorem trans (h : ChangedBy events a a') (h' : ChangedBy others a' a'') :
  ChangedBy (events ++ others) a a''
  where
  store := h.store.trans h'.store
  length_le := Nat.le_trans h.length_le h'.length_le
  locals name hname context hcontext := by
    rw [List.mem_append, not_or] at hname
    rw [h'.locals name hname.2 context (Nat.lt_of_lt_of_le hcontext h.length_le),
      h.locals name hname.1 context hcontext]

/-- What changes in one context changes nothing in the others. -/
theorem update {context : Nat} {env : Environment}
    (h : Environment.ChangedBy events (a.environment context) env) :
  ChangedBy events a (a.update context env)
  where
  store := h.store
  length_le := by simp [Activation.update]
  locals name hname other hother := by
    rw [environment_update a context other env hother]
    split
    · rename_i hsame
      subst hsame
      apply h.locals name hname
    · rfl

theorem withStore {store : Store} (h : Store.ChangedBy events a.store store) :
  ChangedBy events a { a with store := store }
  := ⟨h, Nat.le_refl _, fun _ _ _ _ => rfl⟩

theorem fork (a : Activation) (context : Nat) :
  ChangedBy [] a (a.fork context)
  where
  store := Store.ChangedBy.refl a.store
  length_le := by
    rw [Activation.fork, List.length_append]
    apply Nat.le_add_right
  locals name _ other hother := by rw [environment_fork a context other hother]

end ChangedBy

end Activation

/-! ### Runs -/

/-- The events of nodes, bodies and calls account for what these change. -/
theorem Course.changedBy_closed (limits : Limits) :
  Course.ClosedAll limits
    (fun s c => Environment.ChangedBy c.events s.toEnvironment c.state.toEnvironment)
    (fun a c => Activation.ChangedBy c.events a.toActivation c.state.toActivation)
  where
  still result s := Environment.ChangedBy.refl s.toEnvironment
  reading s name := Environment.ChangedBy.read s.toEnvironment name
  binding s name v := Environment.ChangedBy.bind s.toEnvironment name v
  proceeding s c next h hnext := by
    rcases Result.proceeds_or_blocks c.result with ⟨v, hv⟩ | hblocks
    · rw [Course.proceeding_of_proceed hv, Course.events_after]
      apply h.trans (hnext v hv)
    · rw [Course.proceeding_of_blocks hblocks]
      apply h
  inForkOf s c h := ⟨h.store, fun _ _ => rfl⟩
  node s n c h _ := by
    rw [Course.events_during]
    apply (Environment.ChangedBy.of_not_point rfl s.toEnvironment).trans
    apply h.trans (Environment.ChangedBy.of_not_point rfl _)
  calling s callee body run _ h := by
    have hrun := h s.opening
    have hbody : Environment.ChangedBy (run s.opening).events s.toEnvironment
        ((run s.opening).state.environment 0) :=
      ⟨hrun.store, fun name hname => hrun.locals name hname 0 Nat.one_pos⟩
    rw [Counted.events_calling]
    apply (Environment.ChangedBy.of_not_point rfl s.toEnvironment).trans
    apply hbody.trans (Environment.ChangedBy.of_not_point rfl _)
  done result a := Activation.ChangedBy.refl a.toActivation
  acting a context c c' h h' := by
    rw [Course.events_after]
    apply (Activation.ChangedBy.update h).trans h'
  defining a name v c h := by
    rw [Course.events_after]
    apply (Activation.ChangedBy.withStore (Store.ChangedBy.define a.store name v)).trans h
  registering a name f c h := by
    rw [Course.events_after]
    apply (Activation.ChangedBy.withStore (Store.ChangedBy.register a.store name f)).trans h
  forking a context c h := (Activation.ChangedBy.fork a.toActivation context).trans h

namespace Context

variable (c : Context)

/-- The events of its course account for what the evaluation of a node changes. -/
theorem changedBy_course (n : Node) :
  Environment.ChangedBy (c.course n).events c.environment (c.evaluate n).2.environment
  := by
  rw [c.evaluate_eq_course n]
  apply c.course_induction (Course.changedBy_closed c.limits) n

/-- After the evaluation of a node, a name is bound globally if and only if it was before or
has been bound globally in between. -/
theorem hasGlobal_evaluate (n : Node) (name : String) :
  (c.evaluate n).2.hasGlobal name = true
    ↔ c.hasGlobal name = true ∨ .defines name ∈ (c.course n).events
  := (c.changedBy_course n).store.contains_globals name

end Context

end Stencil
