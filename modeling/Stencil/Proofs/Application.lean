import Mathlib.Data.List.Induction
import Mathlib.Data.List.Nodup
import Stencil.Proofs.Computed
import Stencil.Proofs.Registry

/-!
# Building applications

The context of an application is the one that comes about step by step: in a new root context the
global variables are defined and then the functions are registered, in the order in which they are
listed.  This fails exactly if two functions have the same name, with the failure of the first
function whose name one before it has (`Application.context_eq_stepwise`).

A global variable replaces those before it with the same name, so each name stands for the last one.
What this means for computed variables is said by their reads: all of them begin with their first
value, and none goes on with the reads of another, even if the same variable is listed twice
(`Store.Offers`).
-/

namespace Stencil

/-- The value that is due when a variable has been read a number of times. -/
def Variable.due (v : Variable) (count : Nat) : Value :=
  match v with
  | constant w => w
  | computed values => values count

namespace Context

/-- The context with global variables defined one after the other. -/
def defineEach (c : Context) (globals : List (String × Variable)) : Context :=
  globals.foldl (fun c (name, v) => c.define name v) c

/-- The context with functions registered one after the other, up to the first failure. -/
def registerEach (c : Context) (functions : List (String × Function)) : Attempt Context :=
  functions.foldlM (fun c (name, f) => (c.register name f).1.map fun _ => (c.register name f).2) c

/-- What names give that are read one after the other. -/
def readEach (c : Context) : List String → List (Option Value)
  | [] => []
  | name :: rest => (c.read name).1 :: (c.read name).2.readEach rest

end Context

namespace Application

/-- The variable that a name is to stand for: of those that are listed with the name, the last. -/
def global? (a : Application) (name : String) : Option Variable := a.globals.reverse.lookup name

/-- The name is that of the first function with the name of one before it. -/
def FirstRepeated (functions : List (String × Function)) (name : String) : Prop :=
  ∃ before f after, functions = before ++ (name, f) :: after
    ∧ (before.map Prod.fst).Nodup ∧ name ∈ before.map Prod.fst

/-- The context is a root context with what the application lists, and nothing else. -/
structure IsOfferedBy (a : Application) (c : Context) : Prop where
  limits : c.limits = a.limits
  depth : c.depth = 0
  locals : c.locals = {}
  /-- Reading a name gives what is due for its variable after the reads of the same name. -/
  reads : ∀ names i name, names[i]? = some name →
    (c.readEach names)[i]?
      = some ((a.global? name).map fun v => v.due ((names.take i).count name))
  hasGlobal : ∀ name, c.hasGlobal name = true ↔ name ∈ a.globals.map Prod.fst
  functions : ∀ name f, c.store.functions.get? name = some f ↔ (name, f) ∈ a.functions

end Application

/-! ### Variables that are offered -/

/-- The binding is that of a variable that has been read a number of times. -/
def Binding.Presents (s : Store) (v : Variable) (count : Nat) : Binding → Prop
  | constant w => v = .constant w
  | computed values counter =>
      v = .computed values ∧ counter < s.reads.size ∧ s.count counter = count

/-- The global names of the store stand for the variables that are offered, each with reads of its
own, and nothing else is bound globally. -/
structure Store.Offers (offered : String → Option Variable) (counts : String → Nat) (s : Store) :
    Prop where
  bound : ∀ name, (s.globals.get? name).isSome = (offered name).isSome
  presents : ∀ name b v, s.globals.get? name = some b → offered name = some v →
    b.Presents s v (counts name)
  apart : ∀ name other k, (s.globals.get? name).bind Binding.counter? = some k →
    (s.globals.get? other).bind Binding.counter? = some k → name = other

namespace Store

theorem size_le_allocate (s : Store) (v : Variable) :
  s.reads.size ≤ (s.allocate v).2.reads.size
  := by
  cases v with
  | constant w => exact Nat.le_refl _
  | computed values =>
      rw [allocate, Array.size_push]
      exact Nat.le_succ _

theorem size_read (s : Store) (b : Binding) :
  (s.read b).2.reads.size = s.reads.size
  := by
  cases b with
  | constant v => rfl
  | computed values counter => exact Array.size_modify ..

/-- A computed variable gets a counter that is not in use. -/
theorem counter?_allocate {s : Store} {v : Variable} {k : Nat}
    (h : (s.allocate v).1.counter? = some k) :
  k = s.reads.size
  := by
  cases v with
  | constant w => cases h
  | computed values => exact (Option.some.inj h).symm

theorem get?_globals_define (s : Store) (name other : String) (v : Variable) :
  (s.define name v).globals.get? other
    = if other = name then some (s.allocate v).1 else s.globals.get? other
  := by rw [define, Table.get?_insert, globals_allocate]

end Store

namespace Binding.Presents

variable {s : Store} {v : Variable} {count : Nat} {b : Binding}

theorem counter_lt (h : b.Presents s v count) {k : Nat} (hk : b.counter? = some k) :
  k < s.reads.size
  := by
  cases b with
  | constant w => cases hk
  | computed values l =>
      obtain rfl := Option.some.inj hk
      exact h.2.1

theorem allocate (h : b.Presents s v count) (w : Variable) :
  b.Presents (s.allocate w).2 v count
  := by
  cases b with
  | constant _ => exact h
  | computed values k =>
      obtain ⟨hv, hlt, hcount⟩ := h
      exact ⟨hv, Nat.lt_of_lt_of_le hlt (s.size_le_allocate w), (s.count_allocate w k).trans hcount⟩

/-- A variable that is allocated has not been read. -/
theorem of_allocate (s : Store) (v : Variable) :
  (s.allocate v).1.Presents (s.allocate v).2 v 0
  := by
  cases v with
  | constant w => rfl
  | computed values =>
      refine ⟨rfl, Nat.lt_of_lt_of_eq (Nat.lt_succ_self _) (Array.size_push ..).symm, ?_⟩
      rw [s.count_allocate, Store.count, Array.getD_eq_getD_getElem?,
        Array.getElem?_eq_none (Nat.le_refl _), Option.getD_none]

/-- Reading a binding gives what is due. -/
theorem read (h : b.Presents s v count) :
  (s.read b).1 = v.due count ∧ b.Presents (s.read b).2 v (count + 1)
  := by
  cases b with
  | constant w =>
      obtain rfl := h
      exact ⟨rfl, rfl⟩
  | computed values k =>
      obtain ⟨rfl, hlt, rfl⟩ := h
      refine ⟨rfl, rfl, ?_, s.count_read_self values hlt⟩
      rwa [s.size_read]

theorem read_of_ne (h : b.Presents s v count) {other : Binding}
    (hother : ∀ k, b.counter? = some k → other.counter? ≠ some k) :
  b.Presents (s.read other).2 v count
  := by
  cases b with
  | constant _ => exact h
  | computed values k =>
      obtain ⟨hv, hlt, hcount⟩ := h
      refine ⟨hv, ?_, (s.count_read_of_ne (hother k rfl)).trans hcount⟩
      rwa [s.size_read]

end Binding.Presents

namespace Store.Offers

variable {offered : String → Option Variable} {counts : String → Nat} {s : Store}

theorem empty :
  Store.empty.Offers (fun _ => none) (fun _ => 0)
  where
  bound _ := rfl
  presents name b v hb := by cases hb
  apart name other k h := by cases h

/-- A name with a binding stands for a variable that is offered. -/
theorem exists_presents (h : s.Offers offered counts) {name : String} {b : Binding}
    (hb : s.globals.get? name = some b) :
  ∃ v, offered name = some v ∧ b.Presents s v (counts name)
  := by
  have hsome : (offered name).isSome = true := by rw [← h.bound, hb, Option.isSome_some]
  obtain ⟨v, hv⟩ := Option.isSome_iff_exists.mp hsome
  exact ⟨v, hv, h.presents name b v hb hv⟩

/-- The counters of names are in use. -/
theorem counter_lt (h : s.Offers offered counts) {name : String} {k : Nat}
    (hk : (s.globals.get? name).bind Binding.counter? = some k) :
  k < s.reads.size
  := by
  obtain ⟨b, hb, hcounter⟩ := Option.bind_eq_some_iff.mp hk
  obtain ⟨v, -, hpresents⟩ := h.exists_presents hb
  exact hpresents.counter_lt hcounter

/-- Defining a name offers a variable that has not been read, in place of what the name stood for. -/
theorem define (h : s.Offers offered counts) (name : String) (v : Variable) :
  (s.define name v).Offers (Function.update offered name (some v)) (Function.update counts name 0)
  := by
  constructor
  case bound =>
    intro other
    rw [Store.get?_globals_define]
    by_cases hname : other = name
    · rw [if_pos hname, hname, Function.update_self, Option.isSome_some, Option.isSome_some]
    · rw [if_neg hname, Function.update_of_ne hname, h.bound]
  case presents =>
    intro other b w hb hw
    rw [Store.get?_globals_define] at hb
    by_cases hname : other = name
    · subst hname
      rw [if_pos rfl] at hb
      rw [Function.update_self] at hw
      obtain rfl := Option.some.inj hb
      obtain rfl := Option.some.inj hw
      rw [Function.update_self]
      exact .of_allocate s v
    · rw [if_neg hname] at hb
      rw [Function.update_of_ne hname] at hw
      rw [Function.update_of_ne hname]
      exact (h.presents other b w hb hw).allocate v
  case apart =>
    intro first second k hfirst hsecond
    rw [Store.get?_globals_define] at hfirst hsecond
    split at hfirst <;> split at hsecond
    case isTrue.isTrue hf hs => exact hf.trans hs.symm
    case isTrue.isFalse =>
      exact absurd (Store.counter?_allocate hfirst) (Nat.ne_of_lt (h.counter_lt hsecond))
    case isFalse.isTrue =>
      exact absurd (Store.counter?_allocate hsecond) (Nat.ne_of_lt (h.counter_lt hfirst))
    case isFalse.isFalse => exact h.apart first second k hfirst hsecond

/-- Reading the binding of a name counts for this name only. -/
theorem read (h : s.Offers offered counts) {name : String} {b : Binding}
    (hb : s.globals.get? name = some b) :
  (s.read b).2.Offers offered (Function.update counts name (counts name + 1))
  := by
  constructor
  case bound =>
    rw [Store.globals_read]
    exact h.bound
  case presents =>
    intro other b' w hb' hw
    rw [Store.globals_read] at hb'
    have hpresents := h.presents other b' w hb' hw
    by_cases hname : other = name
    · subst hname
      obtain rfl := Option.some.inj (hb.symm.trans hb')
      rw [Function.update_self]
      exact hpresents.read.2
    · rw [Function.update_of_ne hname]
      apply hpresents.read_of_ne
      intro k hk hk'
      apply hname
      apply h.apart other name k
      · rw [hb', Option.bind_some, hk]
      · rw [hb, Option.bind_some, hk']
  case apart =>
    rw [Store.globals_read]
    exact h.apart

/-- The offer depends only on the global variables and on what has been read. -/
theorem of_eq (h : s.Offers offered counts) {t : Store} (hglobals : t.globals = s.globals)
    (hreads : t.reads = s.reads) :
  t.Offers offered counts
  := by
  obtain ⟨globals, functions, reads⟩ := t
  obtain rfl : globals = s.globals := hglobals
  obtain rfl : reads = s.reads := hreads
  refine ⟨h.bound, fun name b v hb hv => ?_, h.apart⟩
  have hpresents := h.presents name b v hb hv
  cases b with
  | constant w => exact hpresents
  | computed values k => exact hpresents

end Store.Offers

namespace Context

variable {c : Context} {offered : String → Option Variable} {counts : String → Nat}

/-- Reading a name gives what is due for the variable that is offered, and counts for this name
only. -/
theorem read_of_offers (hlocals : c.locals = {}) (h : c.store.Offers offered counts)
    (name : String) :
  (c.read name).1 = (offered name).map (fun v => v.due (counts name))
    ∧ (c.read name).2.locals = {}
    ∧ (c.read name).2.store.Offers offered (Function.update counts name (counts name + 1))
  := by
  cases hb : c.store.globals.get? name with
  | none =>
      have hnone : offered name = none := by
        rw [← Option.not_isSome_iff_eq_none, ← h.bound, hb, Option.isSome_none]
        exact Bool.false_ne_true
      have hread : c.read name = (none, c) := by
        obtain ⟨frame, store⟩ := c
        obtain ⟨locals, limits, depth, hdepth⟩ := frame
        obtain rfl : locals = {} := hlocals
        rw [read, Environment.read, Environment.resolve?]
        simp only [environment, hb]
        rfl
      rw [hread, hnone]
      refine ⟨rfl, hlocals, h.bound, fun other b v hb hv => ?_, h.apart⟩
      have hne : other ≠ name := by
        rintro rfl
        rw [hnone] at hv
        cases hv
      rw [Function.update_of_ne hne]
      exact h.presents other b v hb hv
  | some b =>
      obtain ⟨v, hv, hpresents⟩ := h.exists_presents hb
      have hread : c.read name = (some (c.store.read b).1, { c with store := (c.store.read b).2 }) := by
        rw [read, Environment.read, Environment.resolve?]
        simp only [environment, hb]
        rfl
      rw [hread, hv, hpresents.read.1]
      exact ⟨rfl, hlocals, h.read hb⟩

/-- Of names that are read one after the other each one gives what is due after the reads of the same
name. -/
theorem readEach_of_offers (hlocals : c.locals = {}) (h : c.store.Offers offered counts)
    {names : List String} {i : Nat} {name : String} (hi : names[i]? = some name) :
  (c.readEach names)[i]?
    = some ((offered name).map fun v => v.due (counts name + (names.take i).count name))
  := by
  induction names generalizing c counts i with
  | nil => cases hi
  | cons first rest ih =>
      obtain ⟨hvalue, hlocals', h'⟩ := read_of_offers hlocals h first
      rw [readEach]
      cases i with
      | zero =>
          obtain rfl := Option.some.inj hi
          rw [List.getElem?_cons_zero, hvalue]
          rfl
      | succ i =>
          rw [List.getElem?_cons_succ] at hi
          rw [List.getElem?_cons_succ, ih hlocals' h' hi, List.take_succ_cons, List.count_cons]
          by_cases hname : name = first
          · subst hname
            rw [Function.update_self, beq_self_eq_true, if_pos rfl, Nat.add_right_comm, Nat.add_assoc]
          · rw [Function.update_of_ne hname, if_neg (by simpa using Ne.symm hname), Nat.add_zero]

end Context

/-! ### Step by step -/

namespace Context

theorem defineEach_eq (c : Context) (globals : List (String × Variable)) :
  c.defineEach globals = { c with store := Application.defineAll c.store globals }
  := by
  induction globals generalizing c with
  | nil => rfl
  | cons entry rest ih => exact ih (c.define entry.1 entry.2)

theorem registerEach_eq (c : Context) (functions : List (String × Function)) :
  c.registerEach functions
    = (Application.registerAll c.store functions).map fun s => { c with store := s }
  := by
  induction functions generalizing c with
  | nil => rfl
  | cons entry rest ih =>
      obtain ⟨name, f⟩ := entry
      have hregister : c.register name f
          = ((c.store.register name f).1, { c with store := (c.store.register name f).2 }) := rfl
      rw [registerEach, List.foldlM_cons, Application.registerAll]
      simp only [hregister]
      rcases c.store.register name f with ⟨e | _, s⟩
      · rfl
      · exact ih { c with store := s }

end Context

namespace Application

/-- The context is a root context with the store in which everything is registered. -/
theorem context_eq_map (a : Application) :
  a.context = (registerAll (defineAll .empty a.globals) a.functions).map fun store =>
    { Context.root a.limits with store := store }
  := rfl

/-- The variables of an application are offered by the store in which they are defined. -/
theorem offers_defineAll (globals : List (String × Variable)) :
  (defineAll .empty globals).Offers (fun name => globals.reverse.lookup name) (fun _ => 0)
  := by
  induction globals using List.reverseRecOn with
  | nil => exact .empty
  | append_singleton globals entry ih =>
      obtain ⟨name, v⟩ := entry
      have hlast : (fun other => (globals ++ [(name, v)]).reverse.lookup other)
          = Function.update (fun other => globals.reverse.lookup other) name (some v) := by
        funext other
        rw [List.reverse_append, List.reverse_singleton, List.singleton_append, List.lookup_cons,
          Function.update_apply]
        by_cases hname : other = name
        · rw [if_pos hname, hname, beq_self_eq_true]
        · rw [if_neg hname, beq_eq_false_iff_ne.mpr hname]
      have hnext := ih.define name v
      rw [Function.update_eq_self] at hnext
      rw [hlast, defineAll, List.foldl_append]
      exact hnext

/-- Defining variables registers no functions. -/
theorem functions_defineAll (s : Store) (globals : List (String × Variable)) :
  (defineAll s globals).functions = s.functions
  := by
  induction globals generalizing s with
  | nil => rfl
  | cons entry rest ih => exact (ih (s.define entry.1 entry.2)).trans (s.functions_allocate entry.2)

/-! ### Registering functions -/

/-- Functions are registered part by part. -/
theorem registerAll_append (s : Store) (before after : List (String × Function)) :
  registerAll s (before ++ after) = (registerAll s before).bind fun t => registerAll t after
  := by
  induction before generalizing s with
  | nil => rfl
  | cons entry rest ih =>
      obtain ⟨name, f⟩ := entry
      rw [List.cons_append, registerAll, registerAll]
      rcases s.register name f with ⟨e | _, t⟩
      · rfl
      · exact ih t

/-- The functions are registered in the second store, and nothing else has changed. -/
structure Registers (functions : List (String × Function)) (s t : Store) : Prop where
  globals : t.globals = s.globals
  reads : t.reads = s.reads
  functions : ∀ name f, t.functions.get? name = some f ↔ (name, f) ∈ functions

/-- A name stands for no function exactly if none is listed with it. -/
theorem Registers.get?_eq_none_iff {functions : List (String × Function)} {s t : Store}
    (h : Registers functions s t) {name : String} :
  t.functions.get? name = none ↔ name ∉ functions.map Prod.fst
  := by
  rw [← not_iff_not, not_not, ← ne_eq, Option.ne_none_iff_exists']
  simp [h.functions]

/-- Functions with different names are registered in a store that has none. -/
theorem exists_registerAll {s : Store} (hs : s.functions = {}) {functions : List (String × Function)}
    (h : (functions.map Prod.fst).Nodup) :
  ∃ t, registerAll s functions = .ok t ∧ Registers functions s t
  := by
  induction functions using List.reverseRecOn with
  | nil =>
      refine ⟨s, rfl, rfl, rfl, fun name f => ?_⟩
      rw [hs]
      exact iff_of_false nofun (List.not_mem_nil)
  | append_singleton before entry ih =>
      obtain ⟨name, f⟩ := entry
      rw [List.map_append, List.map_singleton, ← List.concat_eq_append, List.nodup_concat] at h
      obtain ⟨hnew, hbefore⟩ := h
      obtain ⟨t, ht, hregisters⟩ := ih hbefore
      have hregister := Store.register_of_none (hregisters.get?_eq_none_iff.mpr hnew) f
      refine ⟨(t.register name f).2, ?_, ?_⟩
      · rw [registerAll_append, ht, Except.bind, registerAll, hregister]
        rfl
      · rw [hregister]
        refine ⟨hregisters.globals, hregisters.reads, fun other g => ?_⟩
        rw [Table.get?_insert, List.mem_append, List.mem_singleton, Prod.mk.injEq]
        by_cases hname : other = name
        · subst hname
          have hnot : (other, g) ∉ before := fun hmem => hnew (List.mem_map.mpr ⟨_, hmem, rfl⟩)
          simp [hnot, eq_comm]
        · simp [hname, hregisters.functions]

/-- The first function whose name one before it has is refused. -/
theorem registerAll_of_firstRepeated {s : Store} (hs : s.functions = {})
    {functions : List (String × Function)} {name : String} (h : FirstRepeated functions name) :
  registerAll s functions = fail (.functionAlreadyExists name)
  := by
  obtain ⟨before, f, after, rfl, hbefore, hname⟩ := h
  obtain ⟨t, ht, hregisters⟩ := exists_registerAll hs hbefore
  obtain ⟨g, hg⟩ : ∃ g, t.functions.get? name = some g := by
    rw [← Option.ne_none_iff_exists', ne_eq, hregisters.get?_eq_none_iff, not_not]
    exact hname
  rw [registerAll_append, ht, Except.bind, registerAll, Store.register_of_some hg]
  rfl

/-- If names are repeated, then there is a first one. -/
theorem exists_firstRepeated {functions : List (String × Function)}
    (h : ¬ (functions.map Prod.fst).Nodup) :
  ∃ name, FirstRepeated functions name
  := by
  induction functions using List.reverseRecOn with
  | nil => exact absurd List.nodup_nil h
  | append_singleton before entry ih =>
      by_cases hbefore : (before.map Prod.fst).Nodup
      · refine ⟨entry.1, before, entry.2, [], rfl, hbefore, ?_⟩
        rw [List.map_append, List.map_singleton, ← List.concat_eq_append, List.nodup_concat] at h
        by_contra hnot
        exact h ⟨hnot, hbefore⟩
      · obtain ⟨name, earlier, f, later, rfl, hearlier⟩ := ih hbefore
        refine ⟨name, earlier, f, later ++ [entry], ?_, hearlier⟩
        rw [List.append_assoc, List.cons_append]

/-- A root context with what the application lists offers it. -/
theorem isOfferedBy_of_registers {a : Application} {t : Store}
    (h : Registers a.functions (defineAll .empty a.globals) t) :
  a.IsOfferedBy { Context.root a.limits with store := t }
  := by
  have hoffers := (offers_defineAll a.globals).of_eq h.globals h.reads
  constructor
  case limits => rfl
  case depth => rfl
  case locals => rfl
  case reads =>
    intro names i name hi
    rw [Context.readEach_of_offers rfl hoffers hi, Nat.zero_add]
    rfl
  case hasGlobal =>
    intro name
    rw [Context.hasGlobal, Table.contains, hoffers.bound, List.lookup_isSome_iff]
    simp
  case functions => exact h.functions

/-- With different names for the functions an application is built. -/
theorem exists_context (a : Application) (h : (a.functions.map Prod.fst).Nodup) :
  ∃ c, a.context = .ok c ∧ a.IsOfferedBy c
  := by
  obtain ⟨t, ht, hregisters⟩ := exists_registerAll (functions_defineAll .empty a.globals) h
  refine ⟨_, ?_, isOfferedBy_of_registers hregisters⟩
  rw [context_eq_map, ht, Except.map]

theorem context_of_firstRepeated {a : Application} {name : String}
    (h : FirstRepeated a.functions name) :
  a.context = .error ⟨.functionAlreadyExists name, []⟩
  := by
  rw [context_eq_map, registerAll_of_firstRepeated (functions_defineAll .empty a.globals) h, fail,
    Except.map]

/-- The context of an application is the one that comes about step by step.  It fails exactly if the
name of a function is repeated, with the failure of the first one that is; otherwise it offers what the
application lists. -/
theorem context_eq_stepwise (a : Application) :
  a.context = ((Context.root a.limits).defineEach a.globals).registerEach a.functions
    ∧ ((∃ e, a.context = .error e) ↔ ¬ (a.functions.map Prod.fst).Nodup)
    ∧ (∀ e, a.context = .error e
        ↔ ∃ name, FirstRepeated a.functions name ∧ e = ⟨.functionAlreadyExists name, []⟩)
    ∧ ∀ c, a.context = .ok c → a.IsOfferedBy c
  := by
  have hstepwise : a.context
      = ((Context.root a.limits).defineEach a.globals).registerEach a.functions := by
    rw [context_eq_map, Context.registerEach_eq, Context.defineEach_eq]
    rfl
  refine ⟨hstepwise, ?_⟩
  by_cases hnodup : (a.functions.map Prod.fst).Nodup
  · obtain ⟨c, hc, hoffered⟩ := a.exists_context hnodup
    have hsucceeds : ∀ e, a.context ≠ .error e := by
      intro e he
      rw [he] at hc
      cases hc
    refine ⟨?_, fun e => ?_, fun d hd => ?_⟩
    · apply iff_of_false _ (not_not_intro hnodup)
      rintro ⟨e, he⟩
      exact hsucceeds e he
    · apply iff_of_false (hsucceeds e)
      rintro ⟨name, hname, -⟩
      exact hsucceeds _ (context_of_firstRepeated hname)
    · obtain rfl := Except.ok.inj (hc.symm.trans hd)
      exact hoffered
  · obtain ⟨name, hname⟩ := exists_firstRepeated hnodup
    have hfails := context_of_firstRepeated hname
    refine ⟨iff_of_true ⟨_, hfails⟩ hnodup, fun e => ⟨?_, ?_⟩, fun c hc => ?_⟩
    · intro he
      exact ⟨name, hname, Except.error.inj (he.symm.trans hfails)⟩
    · rintro ⟨other, hother, rfl⟩
      exact context_of_firstRepeated hother
    · rw [hfails] at hc
      cases hc

/-- A counter that takes the place of a constant starts apart from the same counter under another name.
Of functions with repeated names it is the first repetition that is refused. -/
theorem context_eq_stepwise_of_counters :
  ∃ (a b : Application) (c : Context),
    a.globals = [("x", .constant .empty), ("y", .counter 5 1), ("x", .counter 5 1)]
      ∧ a.context = .ok c
      ∧ (c.readEach ["x", "y", "y", "x", "z"])[3]? = some (some (.integer 6))
      ∧ (c.readEach ["x", "y", "y", "x", "z"])[4]? = some none
      ∧ b.functions = [("f", .list .any), ("g", .sum .any), ("g", .list .any), ("f", .sum .any)]
      ∧ b.context = .error ⟨.functionAlreadyExists "g", []⟩
  := by
  let a : Application :=
    { globals := [("x", .constant .empty), ("y", .counter 5 1), ("x", .counter 5 1)] }
  let b : Application :=
    { functions := [("f", .list .any), ("g", .sum .any), ("g", .list .any), ("f", .sum .any)] }
  have hc : a.context = .ok _ := rfl
  obtain ⟨-, -, -, hoffered⟩ := context_eq_stepwise a
  have hreads := (hoffered _ hc).reads ["x", "y", "y", "x", "z"]
  refine ⟨a, b, _, rfl, hc, ?_, hreads 4 "z" rfl, rfl, ?_⟩
  · rw [hreads 3 "x" rfl]
    decide
  · obtain ⟨-, -, hfailure, -⟩ := context_eq_stepwise b
    let before : List (String × Function) := [("f", .list .any), ("g", .sum .any)]
    have hname : FirstRepeated b.functions "g" :=
      ⟨before, .list .any, [("f", .sum .any)], rfl, by decide, by decide⟩
    exact (hfailure _).mpr ⟨"g", hname, rfl⟩

end Application

end Stencil
