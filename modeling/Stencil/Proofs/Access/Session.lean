import Stencil.Proofs.Access.Run
import Stencil.Proofs.Session

/-!
# Accesses in a session

A session begins with nothing and goes on by moves: an application is built, which gives a new root
context, or a step is done in one of the contexts.  For every store of the session, the accesses of
the moves are its log (`Session.accesses`): those of all contexts with this store, in the order in
which they happen, also inside of evaluations.  The log leads from the empty store to what the
session has made of it (`Session.leads`).
-/

namespace Stencil

/-! ### Steps of a context -/

namespace Context

/-- The accesses that happen when nodes are evaluated from left to right. -/
def accessesOfEach (c : Context) : List Node → List Access
  | [] => []
  | n :: rest =>
      c.accesses n ++ match c.evaluate n with
        | (.ok (.proceed _), c) => c.accessesOfEach rest
        | _ => []

/-- The accesses in the evaluation of several nodes lead to the context afterwards. -/
theorem carries_evaluateEach (c : Context) (nodes : List Node) :
  c.environment.Carries (c.accessesOfEach nodes) (c.evaluateEach nodes).2.environment
  := by
  have hall : ∀ before, c.environment.Carries (c.accessesOfEach nodes)
      (Node.evaluateEach c.answer nodes before c.environment).2 := by
    induction nodes generalizing c with
    | nil => exact fun _ => Carries.nil rfl fun _ => id
    | cons n rest ih =>
        intro before
        have hfirst := c.carries_evaluate n
        rw [accessesOfEach, Node.evaluateEach]
        rw [evaluate] at hfirst ⊢
        generalize n.evaluate c.answer c.environment = r at hfirst ⊢
        obtain ⟨f | ⟨v⟩ | ⟨v, s⟩ | ⟨v, s⟩, e⟩ := r
        case ok.proceed => exact hfirst.append (ih (c.withEnvironment e) (v :: before))
        all_goals exact hfirst.append (Carries.nil rfl fun _ => id)
  apply hall []

end Context

namespace Session

/-- The accesses of a step in a context. -/
def Step.accesses (c : Context) : Step → List Access
  | .bind name v => [⟨c.environment, .bind name v⟩]
  | .define name v => [⟨c.environment, .define name v⟩]
  | .register name f => [⟨c.environment, .register name f⟩]
  | .read name => [⟨c.environment, .read name⟩]
  | .evaluate n => c.accesses n
  | .render n => c.accesses n
  | .call callee => c.callAccesses callee
  | .evaluateEach nodes => c.accessesOfEach nodes
  | .newRoot _ => []
  | .fork => []
  | .arity _ => []
  | .bound _ => []
  | .shares _ => []
  | .limits => []
  | .describe => []

/-- The accesses of a step lead to what the step makes of its context. -/
theorem Step.carries_effect? {shares : Nat → Bool} {c c' : Context} {action : Step} {reply : Reply}
    (h : action.effect? shares c = some (reply, c')) :
  c.environment.Carries (action.accesses c) c'.environment
  := by
  cases action with
  | newRoot limits => cases h
  | fork => cases h
  | bind name v =>
      obtain ⟨-, rfl⟩ := Prod.mk.inj (Option.some.inj h)
      apply Access.carries ⟨c.environment, .bind name v⟩
  | define name v =>
      obtain ⟨-, rfl⟩ := Prod.mk.inj (Option.some.inj h)
      apply Access.carries ⟨c.environment, .define name v⟩
  | register name f =>
      obtain ⟨-, rfl⟩ := Prod.mk.inj (Option.some.inj h)
      apply Access.carries ⟨c.environment, .register name f⟩
  | read name =>
      obtain ⟨-, rfl⟩ := Prod.mk.inj (Option.some.inj h)
      apply Access.carries ⟨c.environment, .read name⟩
  | evaluate n =>
      obtain ⟨-, rfl⟩ := Prod.mk.inj (Option.some.inj h)
      apply c.carries_evaluate
  | render n =>
      obtain ⟨-, rfl⟩ := Prod.mk.inj (Option.some.inj h)
      apply c.carries_evaluate
  | call callee =>
      obtain ⟨-, rfl⟩ := Prod.mk.inj (Option.some.inj h)
      apply c.carries_call
  | evaluateEach nodes =>
      obtain ⟨-, rfl⟩ := Prod.mk.inj (Option.some.inj h)
      apply c.carries_evaluateEach
  | arity name | bound name | shares other | limits | describe =>
      obtain ⟨-, rfl⟩ := Prod.mk.inj (Option.some.inj h)
      exact Carries.nil rfl fun _ => id

end Session

/-! ### Building an application -/

/-- The log leads from one store to the other, where there are no local variables. -/
abbrev Store.Carries : Store → List Access → Store → Prop := Stencil.Carries Store.Sound id

theorem Store.carries_of_environment {s : Store} {log : List Access} {e : Environment}
    (h : Environment.Carries ⟨s, {}⟩ log e) :
  s.Carries log e.store
  := by
  intro known hs
  obtain ⟨hleads, he⟩ := h known ⟨hs, .empty known⟩
  exact ⟨hleads, he.store⟩

namespace Application

/-- The accesses of global variables that are defined one after the other. -/
def accessesOfGlobals (s : Store) : List (String × Variable) → List Access
  | [] => []
  | (name, v) :: rest => ⟨⟨s, {}⟩, .define name v⟩ :: accessesOfGlobals (s.define name v) rest

/-- The accesses of functions that are registered one after the other. -/
def accessesOfFunctions (s : Store) : List (String × Function) → List Access
  | [] => []
  | (name, f) :: rest =>
      ⟨⟨s, {}⟩, .register name f⟩ :: accessesOfFunctions (s.register name f).2 rest

/-- The accesses of an application that is built. -/
def accesses (a : Application) : List Access :=
  accessesOfGlobals .empty a.globals
    ++ accessesOfFunctions (defineAll .empty a.globals) a.functions

theorem exists_define_of_mem {globals : List (String × Variable)} {s : Store} {access : Access}
    (h : access ∈ accessesOfGlobals s globals) :
  ∃ name v, access.deed = .define name v
  := by
  induction globals generalizing s with
  | nil => cases h
  | cons entry rest ih =>
      rcases List.mem_cons.mp h with rfl | hrest
      · exact ⟨entry.1, entry.2, rfl⟩
      · apply ih hrest

theorem exists_register_of_mem {functions : List (String × Function)} {s : Store}
    {access : Access} (h : access ∈ accessesOfFunctions s functions) :
  ∃ name f, access.deed = .register name f
  := by
  induction functions generalizing s with
  | nil => cases h
  | cons entry rest ih =>
      rcases List.mem_cons.mp h with rfl | hrest
      · exact ⟨entry.1, entry.2, rfl⟩
      · apply ih hrest

theorem carries_defineAll (s : Store) (globals : List (String × Variable)) :
  s.Carries (accessesOfGlobals s globals) (defineAll s globals)
  := by
  induction globals generalizing s with
  | nil => exact Carries.nil rfl fun _ => id
  | cons entry rest ih =>
      obtain ⟨name, v⟩ := entry
      have hfirst := Store.carries_of_environment (Access.carries ⟨⟨s, {}⟩, .define name v⟩)
      exact hfirst.append (ih (s.define name v))

theorem carries_registerAll {s t : Store} {functions : List (String × Function)}
    (h : registerAll s functions = .ok t) :
  s.Carries (accessesOfFunctions s functions) t
  := by
  induction functions generalizing s with
  | nil =>
      obtain rfl := Except.ok.inj h
      exact Carries.nil rfl fun _ => id
  | cons entry rest ih =>
      obtain ⟨name, f⟩ := entry
      have hfirst := Store.carries_of_environment (Access.carries ⟨⟨s, {}⟩, .register name f⟩)
      rw [registerAll] at h
      split at h
      · rename_i s' hregister
        have hrest : (s.register name f).2.Carries _ t := ih (by rw [hregister]; exact h)
        exact hfirst.append hrest
      · cases h

/-- The accesses of an application lead to its context. -/
theorem carries_context {a : Application} {c : Context} (h : a.context = .ok c) :
  Store.empty.Carries a.accesses c.store ∧ c.locals = {}
  := by
  rw [context] at h
  cases hregister : registerAll (defineAll .empty a.globals) a.functions with
  | error e =>
      rw [hregister] at h
      cases h
  | ok store =>
      rw [hregister] at h
      obtain rfl := Except.ok.inj h
      constructor
      · apply (carries_defineAll .empty a.globals).append (carries_registerAll hregister)
      · rfl

end Application

namespace Session

/-! ### Moves of a session -/

/-- The session that has no contexts yet. -/
def nothing : Session := ⟨[], []⟩

/-- The store with a number; one that is not there yet is empty. -/
def store (s : Session) (number : Nat) : Store := s.stores.getD number .empty

/-- What can be done in a session: an application is built, or a step is done in the context at a
position. -/
inductive Move where
  | build (a : Application)
  | step (i : Nat) (action : Step)

/-- The session after a move.  An application that cannot be built adds no context; there is no
session if a step has no context. -/
def move? (s : Session) : Move → Option Session
  | .build a =>
      match a.context with
      | .ok c => some (s.append [c.store] s.stores.length c.toFrame)
      | .error _ => some s
  | .step i action => (s.step? i action).map Prod.snd

/-- The accesses of a move to the store with a number. -/
def Move.accesses (s : Session) (number : Nat) : Move → List Access
  | .build a =>
      match a.context with
      | .ok _ => if number = s.stores.length then a.accesses else []
      | .error _ => []
  | .step i action =>
      if s.number? i = some number then (s.context? i).elim [] action.accesses else []

theorem Move.accesses_step {s : Session} {i number : Nat} {c : Context} (hi : s.context? i = some c)
    (hnumber : s.number? i = some number) (action : Step) :
  (Move.step i action).accesses s number = action.accesses c
  := by rw [Move.accesses, if_pos hnumber, hi, Option.elim_some]

theorem Move.accesses_step_of_ne {s : Session} {i number : Nat}
    (hnumber : s.number? i ≠ some number) (action : Step) :
  (Move.step i action).accesses s number = []
  := by rw [Move.accesses, if_neg hnumber]

/-- The session after moves. -/
def moves? (s : Session) : List Move → Option Session
  | [] => some s
  | move :: rest => (s.move? move).bind fun t => t.moves? rest

/-- The accesses of moves to the store with a number. -/
def accesses (s : Session) (number : Nat) : List Move → List Access
  | [] => []
  | move :: rest =>
      move.accesses s number ++ (s.move? move).elim [] fun t => t.accesses number rest

/-- A context has the store with its number. -/
theorem store_eq_of_context? {s : Session} {i number : Nat} {c : Context}
    (hi : s.context? i = some c) (hnumber : s.number? i = some number) :
  s.store number = c.store
  := by
  obtain ⟨_, hcontext, hstore⟩ := context?_eq_some_iff.mp hi
  rw [number?, hcontext] at hnumber
  obtain rfl := Option.some.inj hnumber
  rw [store, List.getD_eq_getElem?_getD, hstore, Option.getD_some]

theorem number?_append_of_some {s : Session} {i number : Nat} (hi : s.number? i = some number)
    (stores : List Store) (other : Nat) (frame : Frame) :
  (s.append stores other frame).number? i = some number
  := by
  obtain ⟨_, hcontext, -⟩ := Option.map_eq_some_iff.mp hi
  obtain ⟨hlt, -⟩ := List.getElem?_eq_some_iff.mp hcontext
  rw [number?_append, if_neg (Nat.ne_of_lt hlt), hi]

/-- A context keeps its store in a move. -/
theorem number?_of_move? {s t : Session} {move : Move} (h : s.move? move = some t) {i number : Nat}
    (hi : s.number? i = some number) :
  t.number? i = some number
  := by
  cases move with
  | build a =>
      rw [move?] at h
      split at h
      · obtain rfl := Option.some.inj h
        apply number?_append_of_some hi
      · obtain rfl := Option.some.inj h
        apply hi
  | step j action =>
      obtain ⟨⟨reply, _⟩, hstep, rfl⟩ := Option.map_eq_some_iff.mp h
      obtain ⟨c, hj, ⟨-, hadd⟩ | ⟨c', -, rfl⟩⟩ := cases_of_step? hstep
      · cases action with
        | newRoot limits =>
            obtain rfl := Option.some.inj hadd
            apply number?_append_of_some hi
        | fork =>
            obtain rfl := Option.some.inj hadd
            obtain ⟨_, hcontext, -⟩ := context?_eq_some_iff.mp hj
            rw [addFork_eq hcontext]
            apply number?_append_of_some hi
        | _ => cases hadd
      · rw [number?_update]
        apply hi

/-- A context keeps its store. -/
theorem number?_of_moves? {s t : Session} {moves : List Move} (h : s.moves? moves = some t)
    {i number : Nat} (hi : s.number? i = some number) :
  t.number? i = some number
  := by
  induction moves generalizing s with
  | nil =>
      obtain rfl := Option.some.inj h
      apply hi
  | cons move rest ih =>
      obtain ⟨u, hu, hrest⟩ := Option.bind_eq_some_iff.mp h
      apply ih hrest (number?_of_move? hu hi)

theorem moves?_append (s : Session) (before after : List Move) :
  s.moves? (before ++ after) = (s.moves? before).bind fun t => t.moves? after
  := by
  induction before generalizing s with
  | nil => rfl
  | cons move rest ih =>
      rw [List.cons_append, moves?, moves?, Option.bind_assoc]
      congr 1
      ext t
      rw [ih]

theorem accesses_append {s t : Session} {before : List Move} (h : s.moves? before = some t)
    (number : Nat) (after : List Move) :
  s.accesses number (before ++ after) = s.accesses number before ++ t.accesses number after
  := by
  induction before generalizing s with
  | nil =>
      obtain rfl := Option.some.inj h
      rfl
  | cons move rest ih =>
      obtain ⟨u, hu, hrest⟩ := Option.bind_eq_some_iff.mp h
      rw [List.cons_append, accesses, accesses, hu, Option.elim_some, Option.elim_some, ih hrest,
        List.append_assoc]

/-! ### Sound sessions -/

/-- Every computed variable of a store has a counter, and all names in its contexts stand for them
or for constants. -/
structure Sound (number : Nat) (known : List (Nat → Value)) (s : Session) : Prop where
  store : (s.store number).Sound known
  locals : ∀ frame, (number, frame) ∈ s.contexts → frame.locals.From known
  numbers : ∀ context ∈ s.contexts, context.1 < s.stores.length

/-- The log leads from the store with a number in one session to that in another one. -/
abbrev Carries (number : Nat) : Session → List Access → Session → Prop :=
  Stencil.Carries (Sound number) fun s => s.store number

theorem sound_nothing (number : Nat) :
  nothing.Sound number []
  := ⟨.empty, nofun, nofun⟩

/-- In a sound session the environments of contexts are sound. -/
theorem Sound.environment {number : Nat} {known : List (Nat → Value)} {s : Session}
    (hs : s.Sound number known) {i : Nat} {c : Context} (hi : s.context? i = some c)
    (hnumber : s.number? i = some number) :
  c.environment.Sound known
  := by
  have hstore := hs.store
  rw [store_eq_of_context? hi hnumber] at hstore
  obtain ⟨_, hcontext, -⟩ := context?_eq_some_iff.mp hi
  rw [number?, hcontext] at hnumber
  obtain rfl := Option.some.inj hnumber
  exact ⟨hstore, hs.locals c.toFrame (List.mem_of_getElem? hcontext)⟩

/-- A session is sound if the one before is, and the only context that is new or different has names
that stand for what is known. -/
theorem Sound.of_contexts {number m : Nat} {known known' : List (Nat → Value)} {s t : Session}
    {frame : Frame} (hs : s.Sound number known)
    (hknown : ∀ names : Table Binding, names.From known → names.From known')
    (hlength : s.stores.length ≤ t.stores.length) (hm : m < t.stores.length)
    (hcontexts : ∀ context ∈ t.contexts, context ∈ s.contexts ∨ context = (m, frame))
    (hstore : (t.store number).Sound known') (hlocals : m = number → frame.locals.From known') :
  t.Sound number known'
  where
  store := hstore
  locals own hown := by
    rcases hcontexts _ hown with hold | hnew
    · apply hknown _ (hs.locals own hold)
    · obtain ⟨rfl, rfl⟩ := Prod.mk.inj hnew
      apply hlocals rfl
  numbers context hmem := by
    rcases hcontexts _ hmem with hold | rfl
    · apply Nat.lt_of_lt_of_le (hs.numbers context hold) hlength
    · apply hm

section Moves

variable {s t : Session} {number : Nat} {i : Nat} {c c' : Context} {log : List Access}

/-- What happens in a context, seen from its session. -/
theorem carries_update (hi : s.context? i = some c) (hnumber : s.number? i = some number)
    (h : c.environment.Carries log c'.environment) :
  s.Carries number log (s.update i c')
  := by
  have hbefore := store_eq_of_context? hi hnumber
  obtain ⟨m, hcontext, hstore⟩ := context?_eq_some_iff.mp hi
  obtain ⟨hlt, -⟩ := List.getElem?_eq_some_iff.mp hstore
  obtain rfl : m = number := by
    rw [number?, hcontext] at hnumber
    exact Option.some.inj hnumber
  have hafter : (s.update i c').store m = c'.store := by
    rw [Session.store, update_eq hcontext, List.getD_eq_getElem?_getD, List.getElem?_set_self hlt,
      Option.getD_some]
  intro known hs
  obtain ⟨hleads, hc'⟩ := h known (hs.environment hi hnumber)
  constructor
  · simp only [hbefore, hafter]
    exact hleads
  · apply hs.of_contexts fun names hnames => hnames.append _
    · apply Nat.le_of_eq (length_stores_update s i c').symm
    · rw [length_stores_update]
      exact hlt
    · rw [update_eq hcontext]
      exact fun context => List.mem_or_eq_of_mem_set
    · rw [hafter]
      apply hc'.store
    · exact fun _ => hc'.locals

/-- What happens in a context with another store. -/
theorem carries_update_of_ne (hi : s.context? i = some c) (hnumber : s.number? i ≠ some number)
    (c' : Context) :
  s.Carries number [] (s.update i c')
  := by
  obtain ⟨m, hcontext, hstore⟩ := context?_eq_some_iff.mp hi
  obtain ⟨hlt, -⟩ := List.getElem?_eq_some_iff.mp hstore
  have hsame : (s.update i c').store number = s.store number := by
    rw [Session.store, Session.store, List.getD_eq_getElem?_getD, List.getD_eq_getElem?_getD,
      stores_update_of_ne hnumber]
  apply Stencil.Carries.nil hsame
  intro known hs
  apply hs.of_contexts fun _ => id
  · apply Nat.le_of_eq (length_stores_update s i c').symm
  · rw [length_stores_update]
    exact hlt
  · rw [update_eq hcontext]
    exact fun context => List.mem_or_eq_of_mem_set
  · rw [hsame]
    apply hs.store
  · rintro rfl
    rw [number?, hcontext] at hnumber
    exact absurd rfl hnumber

theorem mem_contexts_append {stores : List Store} {m : Nat} {frame : Frame} :
  ∀ context ∈ (s.append stores m frame).contexts, context ∈ s.contexts ∨ context = (m, frame)
  := by
  intro context h
  rcases List.mem_append.mp h with hold | hnew
  · exact .inl hold
  · exact .inr (List.mem_singleton.mp hnew)

/-- A context is added that has one of the stores, and no other names than another one with it. -/
theorem carries_fork (hi : s.context? i = some c) :
  s.Carries number [] (s.addFork i)
  := by
  obtain ⟨m, hcontext, hstore⟩ := context?_eq_some_iff.mp hi
  obtain ⟨hlt, -⟩ := List.getElem?_eq_some_iff.mp hstore
  have hstores : (s.append [] m c.toFrame).stores = s.stores := List.append_nil _
  rw [addFork_eq hcontext]
  have hsame : (s.append [] m c.toFrame).store number = s.store number := by
    rw [Session.store, Session.store, hstores]
  apply Stencil.Carries.nil hsame
  intro known hs
  apply hs.of_contexts fun _ => id
  · apply Nat.le_of_eq (congrArg List.length hstores).symm
  · rw [hstores]
    exact hlt
  · apply mem_contexts_append
  · rw [hsame]
    apply hs.store
  · rintro rfl
    apply hs.locals c.toFrame (List.mem_of_getElem? hcontext)

theorem store_append (s : Session) (own : Store) (frame : Frame) (number : Nat) :
  (s.append [own] s.stores.length frame).store number
    = if number = s.stores.length then own else s.store number
  := by
  rw [Session.store, Session.store, append, List.getD_eq_getElem?_getD,
    List.getD_eq_getElem?_getD]
  split
  · rename_i hnumber
    rw [hnumber, List.getElem?_concat_length, Option.getD_some]
  · rename_i hnumber
    rcases Nat.lt_or_gt_of_ne hnumber with hlt | hgt
    · rw [List.getElem?_append_left hlt]
    · rw [List.getElem?_eq_none (Nat.le_of_lt hgt), List.getElem?_eq_none]
      rw [List.length_append, List.length_singleton]
      apply hgt

/-- The store of the next root context is empty so far. -/
theorem store_length (s : Session) :
  s.store s.stores.length = .empty
  := by
  rw [Session.store, List.getD_eq_getElem?_getD, List.getElem?_eq_none (Nat.le_refl _),
    Option.getD_none]

/-- A root context is added with a store of its own. -/
theorem carries_append {own : Store} {frame : Frame} (hlocals : frame.locals = {})
    (h : Store.empty.Carries log own) :
  s.Carries number (if number = s.stores.length then log else [])
    (s.append [own] s.stores.length frame)
  := by
  have hlength : (s.append [own] s.stores.length frame).stores.length = s.stores.length + 1 := by
    rw [append, List.length_append, List.length_singleton]
  have hnames : ∀ known, frame.locals.From known := by
    intro known
    rw [hlocals]
    apply Table.From.empty
  split
  · rename_i hnumber
    subst hnumber
    have hafter := s.store_append own frame s.stores.length
    rw [if_pos rfl] at hafter
    intro known hs
    have hstore := hs.store
    rw [store_length] at hstore
    obtain ⟨hleads, hstore'⟩ := h known hstore
    constructor
    · simp only [store_length, hafter]
      exact hleads
    · apply hs.of_contexts fun names hnames => hnames.append _
      · rw [hlength]
        apply Nat.le_succ
      · rw [hlength]
        apply Nat.lt_succ_self
      · apply mem_contexts_append
      · rw [hafter]
        apply hstore'
      · exact fun _ => hnames _
  · rename_i hnumber
    have hsame := s.store_append own frame number
    rw [if_neg hnumber] at hsame
    apply Stencil.Carries.nil hsame
    intro known hs
    apply hs.of_contexts fun _ => id
    · rw [hlength]
      apply Nat.le_succ
    · rw [hlength]
      apply Nat.lt_succ_self
    · apply mem_contexts_append
    · rw [hsame]
      apply hs.store
    · exact fun _ => hnames _

/-! ### Logs of sessions -/

/-- The accesses of a move lead to the session afterwards. -/
theorem carries_move {move : Move} (h : s.move? move = some t) (number : Nat) :
  s.Carries number (move.accesses s number) t
  := by
  cases move with
  | build a =>
      rw [move?] at h
      rw [Move.accesses]
      cases hcontext : a.context with
      | ok c =>
          rw [hcontext] at h
          obtain rfl := Option.some.inj h
          obtain ⟨hcarries, hlocals⟩ := Application.carries_context hcontext
          apply carries_append hlocals hcarries
      | error e =>
          rw [hcontext] at h
          obtain rfl := Option.some.inj h
          apply Stencil.Carries.nil rfl fun _ => id
  | step i action =>
      obtain ⟨⟨reply, _⟩, hstep, rfl⟩ := Option.map_eq_some_iff.mp h
      obtain ⟨c, hi, ⟨-, hadd⟩ | ⟨c', heffect, rfl⟩⟩ := cases_of_step? hstep
      · have hnone : (Move.step i action).accesses s number = [] := by
          rw [Move.accesses, hi, Option.elim_some]
          cases action with
          | newRoot limits => exact ite_self _
          | fork => exact ite_self _
          | _ => cases hadd
        rw [hnone]
        cases action with
        | newRoot limits =>
            obtain rfl := Option.some.inj hadd
            have hroot : s.Carries number (if number = s.stores.length then [] else [])
                (s.addRoot limits) := carries_append rfl (Stencil.Carries.nil rfl fun _ => id)
            rw [ite_self] at hroot
            apply hroot
        | fork =>
            obtain rfl := Option.some.inj hadd
            apply carries_fork hi
        | _ => cases hadd
      · by_cases hnumber : s.number? i = some number
        · rw [Move.accesses_step hi hnumber]
          apply carries_update hi hnumber (action.carries_effect? heffect)
        · rw [Move.accesses_step_of_ne hnumber]
          apply carries_update_of_ne hi hnumber

/-- The accesses of moves lead to the session afterwards. -/
theorem carries_moves {moves : List Move} (h : s.moves? moves = some t) (number : Nat) :
  s.Carries number (s.accesses number moves) t
  := by
  induction moves generalizing s with
  | nil =>
      obtain rfl := Option.some.inj h
      apply Stencil.Carries.nil rfl fun _ => id
  | cons move rest ih =>
      obtain ⟨u, hu, hrest⟩ := Option.bind_eq_some_iff.mp h
      rw [accesses, hu, Option.elim_some]
      apply (carries_move hu number).append (ih hrest)

end Moves

/-- The log of a session leads from the empty store to what the session has made of it. -/
theorem leads {moves : List Move} {s : Session} (h : nothing.moves? moves = some s)
    (number : Nat) :
  Leads [] .empty (nothing.accesses number moves) (s.store number)
    ∧ s.Sound number (allocated (nothing.accesses number moves))
  := carries_moves h number [] (sound_nothing number)

end Session

end Stencil
