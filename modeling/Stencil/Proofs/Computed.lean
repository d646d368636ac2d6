import Stencil.Proofs.Access.Session
import Stencil.Proofs.Course.Reads
import Stencil.Proofs.Mentioned

/-!
# Computed variables are shared

All contexts with a store share its computed variables, wherever the names of a variable have been
copied: of all the reads of a variable, by whichever contexts and under whichever names, the first
one gives its first value, the next one the next value, and so on, with no value left out and none
given twice (`Session.computed_shared`).

A read counts for the variable that its name stands for in its context (`Access.reading?`).  What is
done with names in a sound environment either reads the variable with a counter, which gives the
value that is due and counts up, or leaves the counter as it is (`Access.reading_cases`); from this
follows what whole logs do (`Leads.readings`).
-/

namespace Stencil

/-- The value that an access gives as a read of the computed variable with a counter; if it does
anything else, then there is none. -/
def Access.reading? (counter : Nat) (a : Access) : Option Value :=
  match a.deed with
  | .read name =>
      if (a.environment.resolve? name).bind Binding.counter? = some counter then
        (a.environment.read name).1
      else none
  | _ => none

/-- The values that a log gives as reads of the computed variable with a counter, in order. -/
def readings (counter : Nat) (log : List Access) : List Value :=
  log.filterMap (Access.reading? counter)

/-- How often the computed variable with a counter has been read. -/
def Store.count (s : Store) (counter : Nat) : Nat := s.reads.getD counter 0

/-! ### Counting -/

namespace Store

theorem count_allocate (s : Store) (v : Variable) (k : Nat) :
  (s.allocate v).2.count k = s.count k
  := by
  cases v with
  | constant w => rfl
  | computed values =>
      simp only [allocate, count, Array.getD_eq_getD_getElem?, Array.getElem?_push]
      split
      · rename_i hk
        rw [hk, Array.getElem?_eq_none (Nat.le_refl _)]
        rfl
      · rfl

theorem count_read_self (s : Store) (values : Nat → Value) {k : Nat} (hk : k < s.reads.size) :
  (s.read (.computed values k)).2.count k = s.count k + 1
  := by
  simp only [read, count, Array.getD_eq_getD_getElem?, Array.getElem?_modify, if_true,
    Array.getElem?_eq_getElem hk, Option.map_some, Option.getD_some]

theorem count_read_of_ne (s : Store) {b : Binding} {k : Nat} (hb : b.counter? ≠ some k) :
  (s.read b).2.count k = s.count k
  := by
  cases b with
  | constant v => rfl
  | computed values l =>
      have hl : l ≠ k := fun h => hb (congrArg some h)
      simp [read, count, Array.getElem?_modify, hl]

end Store

theorem Environment.Sound.binding {e : Environment} {known : List (Nat → Value)}
    (h : e.Sound known) {globally : Bool} {name : String} {b : Binding}
    (hb : e.binding? globally name = some b) :
  b.From known
  := by
  cases globally with
  | true => apply h.store.globals name _ hb
  | false => apply h.locals name _ hb

/-- A name that has a counter stands for the computed variable that the counter belongs to. -/
theorem Environment.Sound.resolve_of_counter {e : Environment} {known : List (Nat → Value)}
    (h : e.Sound known) {name : String} {k : Nat}
    (hname : (e.resolve? name).bind Binding.counter? = some k) :
  ∃ values, known[k]? = some values ∧ e.resolve? name = some (.computed values k)
  := by
  obtain ⟨b, hb, hcounter⟩ := Option.bind_eq_some_iff.mp hname
  have hfrom := h.resolve hb
  cases b with
  | constant v => cases hcounter
  | computed values l =>
      obtain rfl := Option.some.inj hcounter
      exact ⟨values, hfrom, hb⟩

/-- Reading a name that has a counter gives the value that is due. -/
theorem Environment.Sound.read_of_counter {e : Environment} {known : List (Nat → Value)}
    (h : e.Sound known) {k : Nat} {values : Nat → Value} (hk : known[k]? = some values)
    {name : String} (hname : (e.resolve? name).bind Binding.counter? = some k) :
  (e.read name).1 = some (values (e.store.count k))
  := by
  obtain ⟨own, hown, hresolve⟩ := h.resolve_of_counter hname
  obtain rfl := Option.some.inj (hown.symm.trans hk)
  rw [Environment.read, hresolve]
  rfl

/-- An access reads the variable with a counter, which gives the value that is due, or it leaves the
counter as it is. -/
theorem Access.reading_cases {a : Access} {known : List (Nat → Value)}
    (h : a.environment.Sound known) (k : Nat) :
  (∃ values, known[k]? = some values
      ∧ a.reading? k = some (values (a.environment.store.count k))
      ∧ a.after.store.count k = a.environment.store.count k + 1)
    ∨ (a.reading? k = none ∧ a.after.store.count k = a.environment.store.count k)
  := by
  obtain ⟨e, deed⟩ := a
  cases deed with
  | read name =>
      simp only [reading?, after]
      by_cases hcounter : (e.resolve? name).bind Binding.counter? = some k
      · obtain ⟨values, hk, hresolve⟩ := h.resolve_of_counter hcounter
        have hlt : k < e.store.reads.size := by
          rw [h.store.size]
          exact (List.getElem?_eq_some_iff.mp hk).1
        refine .inl ⟨values, hk, ?_⟩
        rw [if_pos hcounter, Environment.read, hresolve]
        exact ⟨rfl, e.store.count_read_self values hlt⟩
      · refine .inr ⟨if_neg hcounter, ?_⟩
        rw [Environment.read]
        cases hresolve : e.resolve? name with
        | none => rfl
        | some b =>
            rw [hresolve] at hcounter
            apply e.store.count_read_of_ne hcounter
  | bind name v => exact .inr ⟨rfl, e.store.count_allocate v k⟩
  | define name v => exact .inr ⟨rfl, e.store.count_allocate v k⟩
  | register name f =>
      refine .inr ⟨rfl, ?_⟩
      simp only [after, Store.register]
      split <;> rfl

/-- The reads of a variable in a log give the values that are due, one after the other. -/
theorem Leads.readings {known : List (Nat → Value)} {s s' : Store} {log : List Access}
    (h : Leads known s log s') {k : Nat} {values : Nat → Value}
    (hk : (known ++ allocated log)[k]? = some values) :
  ∃ n, s'.count k = s.count k + n
    ∧ Stencil.readings k log = (List.range' (s.count k) n).map values
  := by
  induction h with
  | nil known s => exact ⟨0, rfl, rfl⟩
  | @cons known a rest _ ha _ ih =>
      rw [allocated, List.flatMap_cons, ← List.append_assoc] at hk
      obtain ⟨n, hcount, hrest⟩ := ih hk
      rw [Stencil.readings, List.filterMap_cons]
      rw [Stencil.readings] at hrest
      rcases Access.reading_cases ha k with ⟨own, hown, hreading, hafter⟩ | ⟨hreading, hafter⟩
      · obtain rfl : own = values := by
          rw [List.append_assoc, List.getElem?_append_left (List.getElem?_eq_some_iff.mp hown).1,
            hown] at hk
          exact Option.some.inj hk
        refine ⟨n + 1, by rw [hcount, hafter]; omega, ?_⟩
        rw [hreading, hrest, hafter, List.range'_succ, List.map_cons]
      · refine ⟨n, by rw [hcount, hafter], ?_⟩
        rw [hreading, hrest, hafter]

/-! ### Moves that read nothing -/

namespace Session

/-- Whether something is read in the move, or may be in an evaluation. -/
def Move.mayRead : Move → Bool
  | step _ (.read _) => true
  | step _ (.evaluate _) => true
  | step _ (.render _) => true
  | step _ (.call _) => true
  | step _ (.evaluateEach _) => true
  | _ => false

theorem Move.not_reads {s : Session} {number : Nat} {move : Move} (hmove : move.mayRead = false)
    {a : Access} (h : a ∈ move.accesses s number) (name : String) :
  a.deed ≠ .read name
  := by
  cases move with
  | build application =>
      have hmem : a ∈ application.accesses := by
        rw [Move.accesses] at h
        split at h
        · split at h
          · apply h
          · cases h
        · cases h
      rcases List.mem_append.mp hmem with hglobal | hfunction
      · obtain ⟨_, _, hdeed⟩ := Application.exists_define_of_mem hglobal
        rw [hdeed]
        intro hread
        cases hread
      · obtain ⟨_, _, hdeed⟩ := Application.exists_register_of_mem hfunction
        rw [hdeed]
        intro hread
        cases hread
  | step i action =>
      rw [Move.accesses] at h
      split at h
      · obtain ⟨c, -, hmem⟩ : ∃ c, s.context? i = some c ∧ a ∈ action.accesses c := by
          cases hi : s.context? i with
          | none =>
              rw [hi] at h
              cases h
          | some c =>
              rw [hi] at h
              exact ⟨c, rfl, h⟩
        cases action with
        | read _ | evaluate _ | render _ | call _ | evaluateEach _ => cases hmove
        | bind _ _ | define _ _ | register _ _ =>
            obtain rfl := List.mem_singleton.mp hmem
            intro hread
            cases hread
        | newRoot _ | fork | arity _ | bound _ | shares _ | limits | describe => cases hmem
      · cases h

end Session

/-! ### Reads in runs -/

/-- The log tells which of the events of a run access names.  The evaluation of a reference reads
its variable and nothing else; otherwise a variable is read only by the body of what is called. -/
structure ReadBy (log : List Access) (events : List Event) : Prop where
  accesses : log.map Access.event = events.filter Event.isPoint
  references : ∀ before name after, events = before ++ .starts (.node (.reference name)) :: after →
    ∃ result rest, after = .reads name :: .ends (.node (.reference name)) result :: rest
  reads : ∀ before name after, events = before ++ .reads name :: after →
    ∃ a, (pending before).head? = some a ∧ (a = .node (.reference name) ∨ a.isCall = true)

theorem ReadsInPlace.readBy {log : List Access} {events : List Event} (h : ReadsInPlace [] events)
    (haccesses : log.map Access.event = events.filter Event.isPoint) :
  ReadBy log events
  where
  accesses := haccesses
  references before name after hevents := by
    rw [hevents] at h
    apply h.exists_of_starts
  reads before name after hevents := by
    rw [hevents] at h
    apply h.exists_of_reads

/-- The evaluation of a reference gives what is read. -/
theorem Context.evaluate_reference {c : Context} {name : String} {v : Value}
    (h : (c.environment.read name).1 = some v) :
  (c.evaluate (.reference name)).1 = proceed v
  := by
  rw [evaluate, Node.evaluate]
  generalize c.environment.read name = r at h
  obtain ⟨_, e⟩ := r
  obtain rfl := h
  rfl

/-- The evaluation of a reference reads its variable. -/
theorem Context.accesses_reference (c : Context) (name : String) :
  c.accesses (.reference name) = [⟨c.environment, .read name⟩]
  := by
  rw [accesses, Node.accesses_eq]
  rfl

/-! ### Sharing -/

namespace Session

/-- The contexts with a store share the computed variable with a counter, where `log` tells what
they have done with names in the session so far. -/
structure SharesComputed (number counter : Nat) (values : Nat → Value) (log : List Access)
    (s : Session) : Prop where
  /-- The reads have given the values in order, and the counter tells how many there were. -/
  readings_eq : readings counter log = (List.range ((s.store number).count counter)).map values
  /-- Reading a name that stands for the variable gives the value that is due, and so does the
  evaluation of a reference. -/
  next : ∀ i c name, s.context? i = some c → s.number? i = some number →
    (c.environment.resolve? name).bind Binding.counter? = some counter →
      (∃ t, s.step? i (.read name)
          = some (.value (some (values ((s.store number).count counter))), t))
        ∧ ∃ t, s.step? i (.evaluate (.reference name))
          = some (.result (proceed (values ((s.store number).count counter))), t)
  /-- This reads the variable once, and no other name does so. -/
  once : ∀ i c name action, s.context? i = some c → s.number? i = some number →
    action = .read name ∨ action = .evaluate (.reference name) →
      readings counter ((Move.step i action).accesses s number)
        = if (c.environment.resolve? name).bind Binding.counter? = some counter then
            [values ((s.store number).count counter)]
          else []
  /-- A global variable is read in place of a local one. -/
  shadowed : ∀ i c name action b, s.context? i = some c → s.number? i = some number →
    action = .read name ∨ action = .evaluate (.reference name) →
    c.store.globals.get? name = some b → b.counter? ≠ some counter →
      readings counter ((Move.step i action).accesses s number) = []
  /-- Evaluations and calls read variables where they evaluate references, and where the bodies of
  functions do so. -/
  evaluations : ∀ i c n, s.context? i = some c → s.number? i = some number →
    (Move.step i (.evaluate n)).accesses s number = c.accesses n
      ∧ (Move.step i (.render n)).accesses s number = c.accesses n
      ∧ ReadBy (c.accesses n) (c.course n).events
  calls : ∀ i c callee, s.context? i = some c → s.number? i = some number →
    (Move.step i (.call callee)).accesses s number = c.callAccesses callee
      ∧ ReadBy (c.callAccesses callee) (c.callCourse callee).events
  /-- Everything else reads nothing. -/
  quiet : ∀ move : Move, move.mayRead = false → ∀ a ∈ move.accesses s number, ∀ name,
    a.deed ≠ .read name

theorem accesses_read {s : Session} {i number : Nat} {c : Context} (hi : s.context? i = some c)
    (hnumber : s.number? i = some number) {name : String} {action : Step}
    (haction : action = .read name ∨ action = .evaluate (.reference name)) :
  (Move.step i action).accesses s number = [⟨c.environment, .read name⟩]
  := by
  rw [Move.accesses_step hi hnumber]
  rcases haction with rfl | rfl
  · rfl
  · apply c.accesses_reference

/-- The contexts with a store share every computed variable that is bound in one of them. -/
theorem computed_shared {before after : List Move} {s t : Session}
    (hbefore : nothing.moves? before = some s) (hafter : s.moves? after = some t)
    {i number counter : Nat} {c : Context} {globally : Bool} {name : String}
    {values : Nat → Value} (hi : s.context? i = some c) (hnumber : s.number? i = some number)
    (hname : c.environment.binding? globally name = some (.computed values counter)) :
  t.SharesComputed number counter values (nothing.accesses number (before ++ after))
  := by
  have hmoves : nothing.moves? (before ++ after) = some t := by
    rw [moves?_append, hbefore, Option.bind_some, hafter]
  have hknown : (allocated (nothing.accesses number (before ++ after)))[counter]?
      = some values := by
    have hfrom := ((leads hbefore number).2.environment hi hnumber).binding hname
    rw [accesses_append hbefore, allocated_append]
    apply hfrom.append
  obtain ⟨hleads, hsound⟩ := leads hmoves number
  have hreading : ∀ {j d other}, t.context? j = some d → t.number? j = some number →
      (d.environment.resolve? other).bind Binding.counter? = some counter →
        (d.environment.read other).1 = some (values ((t.store number).count counter)) := by
    intro j d other hj hnumber' hother
    rw [store_eq_of_context? hj hnumber']
    apply (hsound.environment hj hnumber').read_of_counter hknown hother
  have honce : ∀ {j d other action}, t.context? j = some d → t.number? j = some number →
      action = .read other ∨ action = .evaluate (.reference other) →
        readings counter ((Move.step j action).accesses t number)
          = if (d.environment.resolve? other).bind Binding.counter? = some counter then
              [values ((t.store number).count counter)]
            else [] := by
    intro j d other action hj hnumber' haction
    rw [accesses_read hj hnumber' haction, readings, List.filterMap_cons, Access.reading?]
    by_cases hother : (d.environment.resolve? other).bind Binding.counter? = some counter
    · simp only [if_pos hother, hreading hj hnumber' hother]
      rfl
    · simp only [if_neg hother]
      rfl
  constructor
  case readings_eq =>
    obtain ⟨n, hcount, hreadings⟩ := hleads.readings hknown
    have hstart : Store.empty.count counter = 0 := rfl
    rw [hstart, Nat.zero_add] at hcount
    rw [hreadings, hcount, hstart, List.range_eq_range']
  case next =>
    intro j d other hj hnumber' hother
    have hvalue := hreading hj hnumber' hother
    constructor
    · rw [← hvalue]
      exact ⟨_, step?_of_effect? hj rfl rfl⟩
    · have hresult := Context.evaluate_reference hvalue
      rw [← hresult]
      refine ⟨_, step?_of_effect? hj rfl ?_⟩
      rw [Reply.aborts, hresult]
      rfl
  case once => exact fun j d other action => honce
  case shadowed =>
    intro j d other action b hj hnumber' haction hglobal hb
    have hresolve : d.environment.resolve? other = some b := by
      rw [Environment.resolve?, Context.environment, hglobal]
    rw [honce hj hnumber' haction, if_neg]
    rw [hresolve]
    apply hb
  case evaluations =>
    intro j d n hj hnumber'
    refine ⟨Move.accesses_step hj hnumber' _, Move.accesses_step hj hnumber' _, ?_⟩
    exact (d.course_readsInPlace n).readBy (d.events_accesses n)
  case calls =>
    intro j d callee hj hnumber'
    refine ⟨Move.accesses_step hj hnumber' _, ?_⟩
    exact (d.callCourse_readsInPlace callee).readBy (d.events_callAccesses callee)
  case quiet => exact fun move hmove a ha => Move.not_reads hmove ha

/-- A block in a fork reads a variable twice, and then the root context does so. -/
theorem computed_shared_of_fork :
  ∃ (before after : List Move) (s t : Session) (n : Node),
    n = .block [.reference "x", .reference "x"] none
      ∧ before = [.build { globals := [("x", .counter 10 1)] }]
      ∧ after = [.step 0 .fork, .step 1 (.evaluate n), .step 0 (.read "x")]
      ∧ nothing.moves? before = some s ∧ s.moves? after = some t
      ∧ readings 0 (nothing.accesses 0 (before ++ after))
        = [.integer 10, .integer 11, .integer 12]
      ∧ (t.store 0).count 0 = 3
  := by
  let n : Node := .block [.reference "x", .reference "x"] none
  let before : List Move := [.build { globals := [("x", .counter 10 1)] }]
  let after : List Move := [.step 0 .fork, .step 1 (.evaluate n), .step 0 (.read "x")]
  obtain ⟨s, hbefore, t, hafter, hcount, c, hi, hnumber, values, hname, hvalues⟩ :
      ∃ s, nothing.moves? before = some s
        ∧ ∃ t, s.moves? after = some t ∧ (t.store 0).count 0 = 3
          ∧ ∃ c, s.context? 0 = some c ∧ s.number? 0 = some 0
            ∧ ∃ values, c.environment.binding? true "x" = some (.computed values 0)
              ∧ (List.range 3).map values = [.integer 10, .integer 11, .integer 12] :=
    ⟨_, rfl, _, rfl, rfl, _, rfl, rfl, _, rfl, rfl⟩
  have hshares := computed_shared hbefore hafter hi hnumber hname
  refine ⟨before, after, s, t, n, rfl, rfl, rfl, hbefore, hafter, ?_, hcount⟩
  rw [hshares.readings_eq, hcount, hvalues]

end Session

end Stencil
