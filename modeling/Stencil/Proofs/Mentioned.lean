import Stencil.Proofs.Course.Lockstep
import Stencil.Proofs.Frame

/-!
# The names that a tree mentions

A tree mentions the names that it reads and assigns (`Node.mentioned`).  If two contexts agree on
these, globally and locally, then the evaluation has the same result in both, they agree
afterwards, and neither of them is touched but for these names (`Context.evaluate_of_agreesOn`).  So
what other names stand for makes no difference.  The functions that are called must be eager or
otherwise do nothing but compute.

To agree on a computed variable is to have read it as often.  Its counter may have one number in the
one context and another in the other; but names that share a counter in one of them must do so in
the other (`Environment.AgreesOn`), since a read through one name counts for all of them.  A run
makes no new counters, so that the counters which belong together at the start do so throughout.
-/

namespace Stencil

/-! ### Trees -/

namespace Node

mutual

/-- The names that a tree reads or assigns. -/
def mentioned : Node → List String
  | literal _ => []
  | reference name => [name]
  | assignment name expression => name :: expression.mentioned
  | dot receiver _ args _ => receiver.mentioned ++ mentionedByAll args
  | call _ args _ => mentionedByAll args
  | binary _ left right => left.mentioned ++ right.mentioned
  | negation operand => operand.mentioned
  | root children => mentionedByAll children
  | block children _ => mentionedByAll children
  | returning expression _ => expression.mentioned
  | terminating expression _ => expression.mentioned

/-- The names that several trees read or assign. -/
def mentionedByAll : List Node → List String
  | [] => []
  | n :: rest => n.mentioned ++ mentionedByAll rest

end

theorem mem_mentionedByAll {name : String} {nodes : List Node} :
  name ∈ mentionedByAll nodes ↔ ∃ n ∈ nodes, name ∈ n.mentioned
  := by
  induction nodes with
  | nil => simp [mentionedByAll]
  | cons n rest ih => simp [mentionedByAll, ih]

theorem mem_mentioned {name : String} {n : Node} :
  name ∈ n.mentioned ↔ n.Mentions name ∨ ∃ child ∈ n.children, name ∈ child.mentioned
  := by cases n <;> simp [mentioned, mem_mentionedByAll, Mentions, children, eq_comm]

/-- A tree mentions a name exactly if a node that reads or assigns it occurs in the tree. -/
theorem mem_mentioned_iff {name : String} {n : Node} :
  name ∈ n.mentioned ↔ ∃ m enclosing, Occurs m enclosing n ∧ m.Mentions name
  := by
  have hmentioned : ∀ n : Node, name ∈ n.mentioned
      ↔ n.Mentions name ∨ (∃ child ∈ n.children, name ∈ child.mentioned) ∧ ¬ False := by
    intro n
    rw [mem_mentioned, not_false_eq_true, and_true]
  apply (exposed_iff hmentioned).trans
  simp

/-- A tree that mentions only some names is congruent to itself, with subtrees that do so too. -/
theorem congruent_self {names : List String} {n : Node} (h : n.mentioned ⊆ names) :
  n.Congruent (· ∈ names) (fun n n' => n' = n ∧ n.mentioned ⊆ names) n
  := by
  have hsame : n.Congruent (· ∈ names) (fun n n' => n' = n ∧ n.mentioned ⊆ names)
      (n.mapChildren id) := by
    apply Congruent.mapChildren
    · intro name hname
      apply h (mem_mentioned.mpr (.inl hname))
    · intro child hchild
      refine ⟨rfl, fun name hname => ?_⟩
      apply h (mem_mentioned.mpr (.inr ⟨child, hchild, hname⟩))
  rwa [mapChildren_id] at hsame

end Node

/-! ### Agreement -/

/-- The number of the counter of a computed variable. -/
def Binding.counter? : Binding → Option Nat
  | constant _ => none
  | computed _ counter => some counter

namespace Environment

/-- What a name is bound to globally, or locally. -/
def binding? (e : Environment) (globally : Bool) (name : String) : Option Binding :=
  if globally then e.store.globals.get? name else e.locals.get? name

/-- A name has the first counter in the first environment and the second one in the second. -/
def Counters (names : List String) (e e' : Environment) (k k' : Nat) : Prop :=
  ∃ name ∈ names, ∃ globally,
    (e.binding? globally name).bind Binding.counter? = some k
      ∧ (e'.binding? globally name).bind Binding.counter? = some k'

end Environment

/-- The same constant, or the same computed variable with counters that are related. -/
inductive Binding.Linked (counters : Nat → Nat → Prop) : Binding → Binding → Prop where
  | constant (v : Value) : Linked counters (.constant v) (.constant v)
  | computed (values : Nat → Value) {k k' : Nat} (h : counters k k') :
      Linked counters (.computed values k) (.computed values k')

namespace Binding.Linked

variable {counters others : Nat → Nat → Prop} {b b' : Option Binding}

/-- Bindings that are linked have related counters. -/
theorem counters_of_rel (h : Option.Rel (Linked counters) b b') {k k' : Nat}
    (hk : b.bind counter? = some k) (hk' : b'.bind counter? = some k') :
  counters k k'
  := by
  cases h with
  | none => cases hk
  | some h =>
      cases h with
      | constant v => cases hk
      | computed values h =>
          obtain rfl := Option.some.inj hk
          obtain rfl := Option.some.inj hk'
          exact h

theorem rel_mono (h : Option.Rel (Linked counters) b b')
    (hmono : ∀ {k k'}, b.bind counter? = some k → b'.bind counter? = some k' → counters k k' →
      others k k') :
  Option.Rel (Linked others) b b'
  := by
  cases h with
  | none => exact .none
  | some h =>
      cases h with
      | constant v => exact .some (.constant v)
      | computed values h => exact .some (.computed values (hmono rfl rfl h))

end Binding.Linked

namespace Environment

/-- The names are bound to the same in both environments, globally and locally, where a computed
variable has been read as often.  Those that are bound to one computed variable in one environment
are so in the other. -/
structure AgreesOn (names : List String) (e e' : Environment) : Prop where
  bindings : ∀ name ∈ names, ∀ globally,
    Option.Rel (Binding.Linked fun k k' => e'.store.reads[k']? = e.store.reads[k]?)
      (e.binding? globally name) (e'.binding? globally name)
  shared : ∀ {k k' l l'}, Counters names e e' k k' → Counters names e e' l l' → (k = l ↔ k' = l')

/-- Nothing is different between two environments but what `names` stand for locally, and how often
the computed variables have been read that `names` stood for. -/
structure TouchedOnly (names : List String) (e e' : Environment) : Prop
    extends Framed names e e' where
  reads : ∀ k, (∀ name ∈ names, ∀ globally,
    (e.binding? globally name).bind Binding.counter? ≠ some k) →
      e'.store.reads[k]? = e.store.reads[k]?

namespace TouchedOnly

variable {names : List String} {start e e' : Environment}

theorem refl (e : Environment) :
  TouchedOnly names e e
  where
  toFramed := Framed.refl e
  reads _ _ := rfl

/-- Counting a read of a variable that one of the names stood for. -/
theorem count (h : TouchedOnly names start e) {name : String} (hname : name ∈ names)
    {globally : Bool} {k : Nat}
    (hk : (start.binding? globally name).bind Binding.counter? = some k) :
  TouchedOnly names start
    { e with store := { e.store with reads := e.store.reads.modify k (· + 1) } }
  where
  globals := h.globals
  functions := h.functions
  kept := h.kept
  locals := h.locals
  reads l hl := by
    have hne : k ≠ l := by
      rintro rfl
      apply hl name hname globally hk
    rw [Array.getElem?_modify, if_neg hne]
    apply h.reads l hl

theorem bind (h : TouchedOnly names start e) {name : String} (hname : name ∈ names) (v : Value) :
  TouchedOnly names start (e.bind name (.constant v))
  where
  toFramed := h.toFramed.trans (.bind e hname _)
  reads := h.reads

/-- What another environment has done to the store. -/
theorem withStore (h : TouchedOnly names start e) (h' : TouchedOnly names start e') :
  TouchedOnly names start { e with store := e'.store }
  where
  globals := h'.globals
  functions := h'.functions
  kept := h.kept
  locals := h.locals
  reads := h'.reads

end TouchedOnly

end Environment

/-! ### Two runs in step -/

/-- Two runs have come from where they started to states that agree on the names, without touching
anything else.  The counters that belong together are those which did so at the start. -/
structure Counted.InStep (names : List String) (start start' : Environment) (s s' : Counted) :
    Prop where
  depth : s'.depth = s.depth
  bindings : ∀ name ∈ names, ∀ globally,
    Option.Rel (Binding.Linked (Environment.Counters names start start'))
      (s.binding? globally name) (s'.binding? globally name)
  reads : ∀ {k k'}, Environment.Counters names start start' k k' →
    s'.store.reads[k']? = s.store.reads[k]?
  touched : Environment.TouchedOnly names start s.toEnvironment
  touched' : Environment.TouchedOnly names start' s'.toEnvironment

namespace Counted.InStep

variable {names : List String} {start start' : Environment} {s s' : Counted}

theorem of_agreesOn (h : start.AgreesOn names start') (depth : Size) :
  InStep names start start' ⟨start, depth⟩ ⟨start', depth⟩
  where
  depth := rfl
  bindings name hname globally := by
    apply Binding.Linked.rel_mono (h.bindings name hname globally)
    intro k k' hk hk' _
    exact ⟨name, hname, globally, hk, hk'⟩
  reads := by
    rintro k k' ⟨name, hname, globally, hk, hk'⟩
    apply Binding.Linked.counters_of_rel (h.bindings name hname globally) hk hk'
  touched := .refl start
  touched' := .refl start'

theorem agreesOn (h : InStep names start start' s s') (hstart : start.AgreesOn names start') :
  s.AgreesOn names s'.toEnvironment
  where
  bindings name hname globally := by
    apply Binding.Linked.rel_mono (h.bindings name hname globally)
    intro k k' _ _ hk
    apply h.reads hk
  shared := by
    have hcounters : ∀ {k k'}, Environment.Counters names s.toEnvironment s'.toEnvironment k k' →
        Environment.Counters names start start' k k' := by
      rintro k k' ⟨name, hname, globally, hk, hk'⟩
      apply Binding.Linked.counters_of_rel (h.bindings name hname globally) hk hk'
    intro k k' l l' hk hl
    apply hstart.shared (hcounters hk) (hcounters hl)

theorem resolve (h : InStep names start start' s s') {name : String} (hname : name ∈ names) :
  Option.Rel (Binding.Linked (Environment.Counters names start start')) (s.resolve? name)
    (s'.resolve? name)
  := by
  have hglobal := h.bindings name hname true
  have hlocal := h.bindings name hname false
  simp only [Environment.binding?, if_true, Bool.false_eq_true, if_false] at hglobal hlocal
  rw [Environment.resolve?, Environment.resolve?]
  generalize s.store.globals.get? name = b at hglobal ⊢
  generalize s'.store.globals.get? name = b' at hglobal ⊢
  cases hglobal with
  | none => exact hlocal
  | some h => exact .some h

/-- Counting a read of one variable. -/
theorem count (h : InStep names start start' s s') (hstart : start.AgreesOn names start') {k k' : Nat}
    (hk : Environment.Counters names start start' k k') :
  InStep names start start'
    { s with store := { s.store with reads := s.store.reads.modify k (· + 1) } }
    { s' with store := { s'.store with reads := s'.store.reads.modify k' (· + 1) } }
  where
  depth := h.depth
  bindings := h.bindings
  reads := by
    intro l l' hl
    rw [Array.getElem?_modify, Array.getElem?_modify, h.reads hl]
    simp only [hstart.shared hk hl]
  touched := by
    obtain ⟨name, hname, globally, hk, -⟩ := hk
    apply h.touched.count hname hk
  touched' := by
    obtain ⟨name, hname, globally, -, hk⟩ := hk
    apply h.touched'.count hname hk

theorem read (h : InStep names start start' s s') (hstart : start.AgreesOn names start')
    {name : String} (hname : name ∈ names) :
  (s'.read name).1 = (s.read name).1
    ∧ InStep names start start' { s with toEnvironment := (s.read name).2 }
      { s' with toEnvironment := (s'.read name).2 }
  := by
  have hresolve := h.resolve hname
  rw [Environment.read, Environment.read]
  generalize s.resolve? name = b at hresolve ⊢
  generalize s'.resolve? name = b' at hresolve ⊢
  cases hresolve with
  | none => exact ⟨rfl, h⟩
  | some hlinked =>
      cases hlinked with
      | constant v => exact ⟨rfl, h⟩
      | @computed values k k' hk =>
          refine ⟨?_, h.count hstart hk⟩
          simp only [Store.read, Array.getD_eq_getD_getElem?, h.reads hk]

theorem bind (h : InStep names start start' s s') {name : String} (hname : name ∈ names)
    (v : Value) :
  InStep names start start' { s with toEnvironment := s.bind name (.constant v) }
    { s' with toEnvironment := s'.bind name (.constant v) }
  where
  depth := h.depth
  bindings other hother globally := by
    have hbindings := h.bindings other hother globally
    cases globally with
    | true => exact hbindings
    | false =>
        simp only [Environment.binding?, Environment.bind, Store.allocate, Bool.false_eq_true,
          if_false, Table.get?_insert] at hbindings ⊢
        split
        · exact .some (.constant v)
        · exact hbindings
  reads := h.reads
  touched := h.touched.bind hname v
  touched' := h.touched'.bind hname v

/-- What two runs in step have done to the stores. -/
theorem withStore (h : InStep names start start' s s') {inner inner' : Counted}
    (hinner : InStep names start start' inner inner') :
  InStep names start start' { s with store := inner.store } { s' with store := inner'.store }
  where
  depth := h.depth
  bindings name hname globally := by
    cases globally with
    | true => exact hinner.bindings name hname true
    | false => exact h.bindings name hname false
  reads := hinner.reads
  touched := h.touched.withStore hinner.touched
  touched' := h.touched'.withStore hinner.touched'

theorem contains_eq (h : InStep names start start' s s') {name : String} (hname : name ∈ names) :
  s'.store.globals.contains name = s.store.globals.contains name
  := by
  have hglobal := h.bindings name hname true
  simp only [Environment.binding?, if_true] at hglobal
  rw [Table.contains, Table.contains]
  generalize s.store.globals.get? name = b at hglobal ⊢
  generalize s'.store.globals.get? name = b' at hglobal ⊢
  cases hglobal with
  | none => rfl
  | some h => rfl

/-- Evaluations of a tree that mentions only the names go in lockstep. -/
theorem lockstep (limits : Limits) (hstart : start.AgreesOn names start')
    (hfunctions : ∀ name, start'.store.functions.get? name = start.store.functions.get? name) :
  Lockstep limits Body.Computes (· ∈ names) (fun n n' => n' = n ∧ n.mentioned ⊆ names)
    (InStep names start start')
  where
  tree := by
    rintro n n' ⟨rfl, hn⟩
    exact .inl (Node.congruent_self hn)
  computes := id
  body := by
    intro answer hanswer hnodes count body hbody args args' hargs s s' hs
    have hopening : InStep names start start' (s.opening.counted 0) (s'.opening.counted 0) :=
      ⟨congrArg (· + 1) hs.depth, hs.bindings, hs.reads, hs.touched, hs.touched'⟩
    apply hbody.alike (fun i => hnodes (hargs i)) _ _ hopening
    · exact Nat.one_pos
    · exact Nat.one_pos
  depth := depth
  atDepth h depth := ⟨rfl, h.bindings, h.reads, h.touched, h.touched'⟩
  functions h name := by
    rw [h.touched.functions, h.touched'.functions, hfunctions]
  isGlobal h := h.contains_eq
  read h := h.read hstart
  bind h := h.bind
  fork h hinner := h.withStore hinner

end Counted.InStep

namespace Context

/-- If two contexts have the same limits, functions and number of open calls, and agree on the names
that a tree mentions, then the evaluation of the tree has the same result in both, and they agree on
these names afterwards.  In each of them nothing else is touched, and what a name stands for that the
tree does not mention is what it was.  The functions that are called are eager or do nothing but
compute. -/
theorem evaluate_of_agreesOn {c c' : Context} {n : Node} (hlimits : c'.limits = c.limits)
    (hdepth : c'.depth = c.depth)
    (hfunctions : ∀ name, c'.store.functions.get? name = c.store.functions.get? name)
    (hagree : c.environment.AgreesOn n.mentioned c'.environment)
    (hcalls : CallsOnly Body.Computes (c.course n).events) :
  (c'.evaluate n).1 = (c.evaluate n).1
    ∧ (c.evaluate n).2.environment.AgreesOn n.mentioned (c'.evaluate n).2.environment
    ∧ c.environment.TouchedOnly n.mentioned (c.evaluate n).2.environment
    ∧ c'.environment.TouchedOnly n.mentioned (c'.evaluate n).2.environment
  := by
  have hlockstep := Counted.InStep.lockstep c.limits hagree hfunctions
  have hstart : Counted.InStep n.mentioned c.environment c'.environment c.counted c'.counted := by
    rw [counted, counted, hdepth]
    apply Counted.InStep.of_agreesOn hagree
  obtain ⟨hresult, hstate⟩ :=
    hlockstep.course hlimits hdepth hstart ⟨rfl, List.Subset.refl _⟩ hcalls
  rw [c.evaluate_eq_course, c'.evaluate_eq_course]
  exact ⟨hresult, hstate.agreesOn hagree, hstate.touched, hstate.touched'⟩

/-- One context has a computed variable more than the other, so that the counters have other
numbers. -/
theorem evaluate_of_agreesOn_of_counters :
  ∃ (c c' : Context) (n : Node),
    c'.limits = c.limits ∧ c'.depth = c.depth
      ∧ (∀ name, c'.store.functions.get? name = c.store.functions.get? name)
      ∧ c.environment.AgreesOn n.mentioned c'.environment
      ∧ CallsOnly Body.Computes (c.course n).events
      ∧ c.hasGlobal "other" = false ∧ c'.hasGlobal "other" = true
      ∧ (c.evaluate n).2.store.reads = #[1] ∧ (c'.evaluate n).2.store.reads = #[0, 1]
      ∧ (c'.evaluate n).1 = (c.evaluate n).1
      ∧ (c.evaluate n).2.environment.AgreesOn n.mentioned (c'.evaluate n).2.environment
      ∧ c'.environment.TouchedOnly n.mentioned (c'.evaluate n).2.environment
  := by
  let offered := ((root .standard).register "list" (.list .any)).2
  let c := offered.define "x" (.cycle [.integer 1, .integer 2])
  let c' := (offered.define "other" (.cycle [.empty])).define "x" (.cycle [.integer 1, .integer 2])
  let x : Node := .reference "x"
  let call : Node := .call "list" [x] none
  let n : Node := .assignment "y" call
  let body : Activity := .call (.function "list" [x] none) ((Function.list .any).body 1 none)
  let listed : Result := proceed (.string "[1]")
  have hcounters : ∀ {k k'},
      Environment.Counters n.mentioned c.environment c'.environment k k' → k = 0 ∧ k' = 1 := by
    rintro k k' ⟨name, hname, globally, hk, hk'⟩
    rcases List.mem_cons.mp hname with rfl | hname
    · cases globally <;> cases hk
    · obtain rfl := List.mem_singleton.mp hname
      cases globally with
      | true => exact ⟨(Option.some.inj hk).symm, (Option.some.inj hk').symm⟩
      | false => cases hk
  have hagree : c.environment.AgreesOn n.mentioned c'.environment := by
    constructor
    · intro name hname globally
      rcases List.mem_cons.mp hname with rfl | hname
      · cases globally <;> exact .none
      · obtain rfl := List.mem_singleton.mp hname
        cases globally with
        | true => exact .some (.computed _ rfl)
        | false => exact .none
    · intro k k' l l' hk hl
      obtain ⟨rfl, rfl⟩ := hcounters hk
      obtain ⟨rfl, rfl⟩ := hcounters hl
      apply iff_of_true rfl rfl
  have hevents : (c.course n).events
      = [.starts (.node n), .starts (.node call), .starts body, .starts (.node x), .reads "x",
        .ends (.node x) (proceed (.integer 1)), .ends body listed, .ends (.node call) listed,
        .binds "y", .ends (.node n) (proceed .empty)] :=
    rfl
  have hcalls : CallsOnly Body.Computes (c.course n).events := by
    intro a ha
    rw [hevents] at ha
    simp only [List.mem_cons, Event.starts.injEq, reduceCtorEq, or_false, List.not_mem_nil] at ha
    obtain rfl | rfl | rfl | rfl := ha
    · trivial
    · trivial
    · exact .inl ⟨_, _, rfl⟩
    · trivial
  have hlimits : c'.limits = c.limits := rfl
  obtain ⟨hresult, hagreed, -, htouched⟩ :=
    evaluate_of_agreesOn hlimits rfl (fun _ => rfl) hagree hcalls
  exact ⟨c, c', n, rfl, rfl, fun _ => rfl, hagree, hcalls, rfl, rfl, rfl, rfl, hresult, hagreed,
    htouched⟩

end Context

end Stencil
