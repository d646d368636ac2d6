import Stencil.Function.Stock
import Stencil.Proofs.Node
import Stencil.Proofs.Plain
import Stencil.Proofs.Unwinding

/-!
# Where signals come from

The returns that a tree may end with can be read off the tree: they are those of its nodes
that return and are in no block which takes them (`Node.freeReturns`).  If the functions that
are called make no returns or terminations of their own, then an evaluation ends with no other
return, and it terminates only with the scope of a node in the tree that terminates
(`Context.signals_have_origin`).

A body relays if every signal it ends with is one that it has received from its arguments
(`Body.Relaying`).  The induction is on the tree; for a call it is on the arguments.  What a
body finds when it looks into an argument counts as a tree of its own: a return is free there
that is not free in the argument, so that it is not enough if a body only passes on what it
has received from somewhere (`Context.not_signals_have_origin`).
-/

namespace Stencil

/-! ### Trees -/

namespace Node

mutual

/-- The scopes of the returns in a tree that are in no block of the tree which takes them. -/
def freeReturns : Node → List (Option Scope)
  | literal _ => []
  | reference _ => []
  | assignment _ expression => expression.freeReturns
  | dot receiver _ args _ => receiver.freeReturns ++ freeReturnsOfAll args
  | call _ args _ => freeReturnsOfAll args
  | binary _ left right => left.freeReturns ++ right.freeReturns
  | negation operand => operand.freeReturns
  | root children => freeReturnsOfAll children
  | block children scope =>
      (freeReturnsOfAll children).filter fun s => decide (s ≠ none ∧ s ≠ scope)
  | returning expression scope => scope :: expression.freeReturns
  | terminating expression _ => expression.freeReturns

/-- The free returns of several trees. -/
def freeReturnsOfAll : List Node → List (Option Scope)
  | [] => []
  | n :: rest => n.freeReturns ++ freeReturnsOfAll rest

end

theorem mem_freeReturnsOfAll {s : Option Scope} {nodes : List Node} :
  s ∈ freeReturnsOfAll nodes ↔ ∃ n ∈ nodes, s ∈ n.freeReturns
  := by
  induction nodes with
  | nil => simp [freeReturnsOfAll]
  | cons n rest ih => simp [freeReturnsOfAll, ih]

/-- The free returns are those of the node itself, and those of its subtrees unless it is a
block that takes them. -/
theorem mem_freeReturns {s : Option Scope} {n : Node} :
  s ∈ n.freeReturns
    ↔ n.OwnSignal (.returning s)
      ∨ (∃ child ∈ n.children, s ∈ child.freeReturns) ∧ ¬ (Activity.node n).Takes s
  := by
  cases n <;> simp [freeReturns, mem_freeReturnsOfAll, OwnSignal, children, Activity.Takes]

theorem exists_of_ownSignal_returning {s : Option Scope} {n : Node}
    (h : n.OwnSignal (.returning s)) :
  ∃ expression, n = .returning expression s
  := by
  cases n with
  | returning expression scope =>
      obtain rfl := Signal.returning.inj h
      exact ⟨expression, rfl⟩
  | terminating expression scope => cases h
  | _ => contradiction

theorem exists_of_ownSignal_terminating {s : Option Scope} {n : Node}
    (h : n.OwnSignal (.terminating s)) :
  ∃ expression, n = .terminating expression s
  := by
  cases n with
  | returning expression scope => cases h
  | terminating expression scope =>
      obtain rfl := Signal.terminating.inj h
      exact ⟨expression, rfl⟩
  | _ => contradiction

/-- A return is free exactly if it occurs where no enclosing node takes it. -/
theorem mem_freeReturns_iff {s : Option Scope} {n : Node} :
  s ∈ n.freeReturns
    ↔ ∃ expression enclosing, Occurs (.returning expression s) enclosing n
      ∧ ∀ block ∈ enclosing, ¬ (Activity.node block).Takes s
  := by
  apply (exposed_iff fun _ => mem_freeReturns).trans
  constructor
  · rintro ⟨m, enclosing, hoccurs, hown, hpassed⟩
    obtain ⟨expression, rfl⟩ := exists_of_ownSignal_returning hown
    exact ⟨expression, enclosing, hoccurs, hpassed⟩
  · rintro ⟨expression, enclosing, hoccurs, hpassed⟩
    exact ⟨_, enclosing, hoccurs, rfl, hpassed⟩

/-- The signals that the evaluation of a tree may end with. -/
def MaySignal (n : Node) : Signal → Prop
  | .returning s => s ∈ n.freeReturns
  | .terminating s => ∃ expression enclosing, Occurs (.terminating expression s) enclosing n

/-- A tree may end with the signals of its node and with those of its subtrees, except for
returns that its node takes. -/
theorem maySignal_of_inside {n : Node} {signal : Signal}
    (h : n.OwnSignal signal ∨ ∃ child ∈ n.children, child.MaySignal signal)
    (hpasses : ∀ s, signal = .returning s → ¬ (Activity.node n).Takes s) :
  n.MaySignal signal
  := by
  cases signal with
  | returning s =>
      apply mem_freeReturns.mpr
      rcases h with hown | hchild
      · left
        apply hown
      · right
        exact ⟨hchild, hpasses s rfl⟩
  | terminating s =>
      rcases h with hown | ⟨child, hchild, expression, enclosing, hoccurs⟩
      · obtain ⟨expression, rfl⟩ := exists_of_ownSignal_terminating hown
        exact ⟨expression, [], .here⟩
      · exact ⟨expression, enclosing ++ [n], .inside hchild hoccurs⟩

end Node

/-! ### Bodies -/

/-- What a block makes of a result has the same signal or none, and it has not taken it. -/
theorem Activity.signal?_conclude {a : Activity} {r : Result} {signal : Signal}
    (h : Result.signal? (a.conclude r) = some signal) :
  Result.signal? r = some signal ∧ ∀ s, signal = .returning s → ¬ a.Takes s
  := by
  match r with
  | .ok (.proceed v) =>
      unfold conclude at h
      split at h <;> cases h
  | .ok (.returning v scope) =>
      by_cases htakes : a.Takes scope
      · rw [a.conclude_of_takes htakes] at h
        cases h
      · rw [a.conclude_of_not_takes htakes] at h
        refine ⟨h, ?_⟩
        rintro s rfl
        obtain rfl := Signal.returning.inj (Option.some.inj h)
        apply htakes
  | .ok (.terminating v scope) =>
      rw [a.conclude_of_stops rfl] at h
      refine ⟨h, ?_⟩
      rintro s rfl
      cases h
  | .error e =>
      rw [a.conclude_of_stops rfl] at h
      cases h

namespace Body

/-- The signals received so far, after the given result of something that was given the
operands: its signal counts as received, unless the body may have brought it along in a tree. -/
def Receives {count : Nat} (brings : Node → Signal → Prop) (received : Signal → Prop)
    (operands : List (Operand count)) (r : Result) (signal : Signal) : Prop :=
  received signal
    ∨ Result.signal? r = some signal ∧ ∀ n, .tree n ∈ operands → ¬ brings n signal

/-- The body ends with no signals but those that it has received.  What it may bring along in a
tree is nothing that an argument may end with which it has looked into. -/
def Relays {count : Nat} :
    Body count → (brings : Node → Signal → Prop) → (received : Signal → Prop) → Prop
  | .done result, _, received => ∀ signal, Result.signal? result = some signal → received signal
  | .inspect _ next, brings, received =>
      ∀ n, (next n).Relays (fun m signal => brings m signal ∧ ¬ n.MaySignal signal) received
  | .evaluate _ operand next, brings, received =>
      ∀ r, (next r).Relays brings (Receives brings received [operand] r)
  | .call _ callee next, brings, received =>
      ∀ r, (next r).Relays brings (Receives brings received callee.args r)
  | .read _ _ next, brings, received => ∀ v, (next v).Relays brings received
  | .isGlobal _ next, brings, received => ∀ b, (next b).Relays brings received
  | .isLocal _ _ next, brings, received => ∀ b, (next b).Relays brings received
  | .arity _ next, brings, received => ∀ arity, (next arity).Relays brings received
  | .bind _ _ _ next, brings, received => next.Relays brings received
  | .define _ _ next, brings, received => next.Relays brings received
  | .register _ _ _ next, brings, received => ∀ outcome, (next outcome).Relays brings received
  | .fork _ next, brings, received => ∀ context, (next context).Relays brings received
  | .depth next, brings, received => ∀ depth, (next depth).Relays brings received
  | .limits next, brings, received => ∀ limits, (next limits).Relays brings received
termination_by structural body => body

/-- The body makes no signals of its own: those it ends with come from its arguments. -/
def Relaying {count : Nat} (body : Body count) : Prop :=
  body.Relays Node.MaySignal fun _ => False

/-- The body makes no signals itself: those it ends with come from something that it has
evaluated or called. -/
def Passing {count : Nat} (body : Body count) : Prop :=
  body.Relays (fun _ _ => False) fun _ => False

theorem Relays.resume {brings : Node → Signal → Prop} {received : Signal → Prop} {count : Nat}
    {operands : List (Operand count)} {next : Result → Body count}
    (h : ∀ r, (next r).Relays brings (Receives brings received operands r)) (r : Result) :
  (resume next r).Relays brings (Receives brings received operands r)
  := by
  rcases resume_cases next r with ⟨haborts, hsame⟩ | ⟨-, hsame⟩
  · rw [hsame]
    intro signal hsignal
    cases r with
    | ok outcome => cases haborts
    | error e => cases hsignal
  · rw [hsame]
    apply h

/-- Plain bodies relay all signals but their own. -/
theorem Plain.relays {brings : Node → Signal → Prop} {count : Nat} {own received : Signal → Prop}
    {body : Body count} (h : body.Plain own) (hown : ∀ signal, own signal → received signal) :
  body.Relays brings received
  := by
  induction h generalizing received with
  | done result h =>
      intro signal hsignal
      apply hown signal (h signal hsignal)
  | value context i h ih =>
      intro r
      rcases r with e | ⟨v⟩ | ⟨v, scope⟩ | ⟨v, scope⟩
      case ok.proceed =>
        apply ih v
        intro signal hsignal
        left
        apply hown signal hsignal
      all_goals
        intro signal hsignal
        right
        refine ⟨hsignal, ?_⟩
        intro n hn
        cases List.mem_singleton.mp hn
  | call context callee h =>
      intro r signal hsignal
      right
      refine ⟨hsignal, ?_⟩
      intro n hn
      obtain ⟨i, hi⟩ := h _ hn
      cases hi
  | read context name h ih =>
      intro v
      apply ih v hown
  | isGlobal name h ih =>
      intro b
      apply ih b hown
  | bind context name v h ih => apply ih hown
  | fork context h ih =>
      intro inner
      apply ih inner hown
  | withinLimit operation source length h ih =>
      apply Member.withinLimit_elim (motive := fun body => body.Relays brings received) (ih hown)
      · intro e signal hsignal
        cases hsignal
      · exact id

/-- A body that brings nothing along may end with what it evaluates or calls. -/
theorem relays_done_of_receives {count : Nat} {brings : Node → Signal → Prop}
    {received : Signal → Prop} (h : ∀ n signal, ¬ brings n signal)
    (operands : List (Operand count)) (r : Result) :
  (done r : Body count).Relays brings (Receives brings received operands r)
  := fun signal hsignal => .inr ⟨hsignal, fun n _ => h n signal⟩

end Body

namespace Function

theorem passing_unwrap (arity : Arity) (count : Nat) (scope : Option Scope) :
  ((unwrap arity).body count scope).Passing
  := by
  have hnothing : ∀ signal, Result.signal? (proceed .empty) ≠ some signal := by
    intro signal h
    cases h
  simp only [unwrap, argumentTree]
  split
  · intro n
    simp only
    split
    · exact fun signal h => absurd h (hnothing signal)
    · exact Body.relays_done_of_receives (fun _ _ h => h.1) _
  · exact fun signal h => absurd h (hnothing signal)

theorem passing_forward (arity : Arity) (target : String) (count : Nat) (scope : Option Scope) :
  ((forward arity target).body count scope).Passing
  := Body.relays_done_of_receives (fun _ _ => id) _

end Function

/-! ### Runs -/

/-- If the functions that are called in the course are eager or relaying, then the signal with
which it ends satisfies `P`. -/
def Course.SignalsOnly {σ : Type} (P : Signal → Prop) (c : Course σ) : Prop :=
  CallsOnly Body.Relaying c.events →
    ∀ signal, Result.signal? c.result = some signal → P signal

section Runs

variable {answer : AnswerCourse} {limits : Limits}

/-- Calls end with signals of their arguments only. -/
def AnswerCourse.Relays (answer : AnswerCourse) : Prop :=
  ∀ callee s, (answer callee s).SignalsOnly fun signal =>
    ∃ arg ∈ callee.args, arg.MaySignal signal

theorem Course.SignalsOnly.mono {σ : Type} {P Q : Signal → Prop} {c : Course σ}
    (h : c.SignalsOnly P) (hmono : ∀ signal, P signal → Q signal) :
  c.SignalsOnly Q
  := fun hcalls signal hsignal => hmono signal (h hcalls signal hsignal)

theorem Course.SignalsOnly.after {σ τ : Type} {P Q : Signal → Prop} {c : Course σ} {next : Course τ}
    (h : c.SignalsOnly P)
    (hnext : (∀ signal, Result.signal? c.result = some signal → P signal) → next.SignalsOnly Q) :
  (next.after c.trace).SignalsOnly Q
  := by
  intro hcalls
  rw [Course.events_after] at hcalls
  obtain ⟨hfirst, hrest⟩ := hcalls.of_append
  apply hnext (h hfirst) hrest

theorem Course.SignalsOnly.behind {σ : Type} {P : Signal → Prop} {c : Course σ}
    (h : c.SignalsOnly P) (before : List Moment) :
  (c.after before).SignalsOnly P
  := by
  intro hcalls
  rw [Course.events_after] at hcalls
  apply h hcalls.of_append.2

/-- What is received satisfies `P`, if the signals of the arguments do and those of other trees
that the body does not bring along, what was received before does, and the result has a signal of
one of the operands. -/
theorem Body.Receives.elim {P received : Signal → Prop} {brings : Node → Signal → Prop}
    {count : Nat} {args : Fin count → Node}
    (hargs : ∀ i signal, (args i).MaySignal signal → P signal)
    (hbrings : ∀ n : Node, ∀ signal, n.MaySignal signal → ¬ brings n signal → P signal)
    (hreceived : ∀ signal, received signal → P signal) {operands : List (Operand count)}
    {r : Result}
    (hr : ∀ signal, Result.signal? r = some signal →
      ∃ operand ∈ operands, (operand.node args).MaySignal signal)
    (signal : Signal) (h : Receives brings received operands r signal) :
  P signal
  := by
  rcases h with hbefore | ⟨hsignal, htrees⟩
  · apply hreceived signal hbefore
  · obtain ⟨operand, hoperand, hmay⟩ := hr signal hsignal
    cases operand with
    | arg i => apply hargs i signal hmay
    | tree n => apply hbrings n signal hmay (htrees n hoperand)

/-- A body ends with signals that satisfy `P`, if those of its arguments and those that it has
received before do. -/
theorem Body.course_signalsOnly (hanswer : answer.Relays) {P : Signal → Prop} {count : Nat}
    {args : Fin count → Node} (hargs : ∀ i signal, (args i).MaySignal signal → P signal)
    (hnodes : ∀ i s, ((args i).course answer s).SignalsOnly (args i).MaySignal)
    {brings : Node → Signal → Prop}
    (hbrings : ∀ n : Node, ∀ signal, n.MaySignal signal → ¬ brings n signal → P signal)
    {received : Signal → Prop} (hreceived : ∀ signal, received signal → P signal)
    {body : Body count} (hbody : body.Relays brings received)
    (hown : body.Always (OwnTree fun n => ∀ s, (n.course answer s).SignalsOnly n.MaySignal))
    (a : CountedActivation) :
  (body.course answer limits args a).SignalsOnly P
  := by
  induction body using Body.induction_on_resume generalizing brings received a with
  | done result =>
      intro _ signal hsignal
      apply hreceived signal (hbody signal hsignal)
  | inspect i next ih =>
      apply ih _ hargs hnodes _ hreceived (hbody _) (hown.2 _)
      intro n signal hmay hbrought
      by_cases harg : (args i).MaySignal signal
      · apply hargs i signal harg
      · apply hbrings n signal hmay
        intro h
        exact hbrought ⟨h, harg⟩
  | evaluate context operand next ih =>
      have hoperand : ∀ s, ((operand.node args).course answer s).SignalsOnly
          (operand.node args).MaySignal :=
        OwnTree.node hown.1 hnodes
      rw [course_evaluate]
      refine (hoperand _).after fun hresult => ?_
      apply ih _ hargs hnodes hbrings _ (Relays.resume hbody _) (OwnTree.resume hown.2 _)
      apply Receives.elim hargs hbrings hreceived
      intro signal hsignal
      exact ⟨operand, List.mem_singleton_self operand, hresult signal hsignal⟩
  | call context callee next ih =>
      rw [course_call]
      refine (hanswer _ _).after fun hresult => ?_
      apply ih _ hargs hnodes hbrings _ (Relays.resume hbody _) (OwnTree.resume hown.2 _)
      apply Receives.elim hargs hbrings hreceived
      intro signal hsignal
      obtain ⟨arg, harg, hmay⟩ := hresult signal hsignal
      rw [Call.args_map] at harg
      obtain ⟨operand, hoperand, rfl⟩ := List.mem_map.mp harg
      exact ⟨operand, hoperand, hmay⟩
  | read context name next ih =>
      rw [Body.course]
      exact (ih _ hargs hnodes hbrings hreceived (hbody _) (hown.2 _) _).behind _
  | isGlobal name next ih => apply ih _ hargs hnodes hbrings hreceived (hbody _) (hown.2 _)
  | isLocal context name next ih => apply ih _ hargs hnodes hbrings hreceived (hbody _) (hown.2 _)
  | arity name next ih => apply ih _ hargs hnodes hbrings hreceived (hbody _) (hown.2 _)
  | bind context name v next ih =>
      rw [Body.course]
      exact (ih hargs hnodes hbrings hreceived hbody hown.2 _).behind _
  | define name v next ih =>
      rw [Body.course]
      exact (ih hargs hnodes hbrings hreceived hbody hown.2 _).behind _
  | register name accepted body next ih =>
      rw [Body.course]
      exact (ih _ hargs hnodes hbrings hreceived (hbody _) (hown.2 _) _).behind _
  | fork context next ih => apply ih _ hargs hnodes hbrings hreceived (hbody _) (hown.2 _)
  | depth next ih => apply ih _ hargs hnodes hbrings hreceived (hbody _) (hown.2 _)
  | limits next ih => apply ih _ hargs hnodes hbrings hreceived (hbody _) (hown.2 _)

/-- An activity ends with signals of its body that it does not take. -/
theorem Activity.course_signalsOnly {P : Signal → Prop} (a : Activity) (s : Counted)
    (h : a.CallsOnly Body.Relaying →
      (a.body.course answer limits a.args.get (a.opening s)).SignalsOnly P) :
  (a.course answer limits s).SignalsOnly fun signal =>
    P signal ∧ ∀ scope, signal = .returning scope → ¬ a.Takes scope
  := by
  intro hcalls signal hsignal
  rw [Activity.events_course] at hcalls
  obtain ⟨hreached, hpasses⟩ := Activity.signal?_conclude hsignal
  constructor
  · apply h (hcalls a List.mem_cons_self) hcalls.of_cons.of_append.1 signal hreached
  · apply hpasses

/-- Nodes end with the signals that can be read off them. -/
theorem Node.course_signalsOnly (hanswer : answer.Relays) (n : Node) (s : Counted) :
  (n.course answer s).SignalsOnly n.MaySignal
  := by
  induction n using Node.induction_on_children generalizing s with
  | h n ih =>
      rw [n.course_eq_activity .standard]
      refine ((Activity.node n).course_signalsOnly s fun _ => ?_).mono fun signal h =>
        n.maySignal_of_inside h.1 h.2
      refine Body.course_signalsOnly hanswer ?_ ?_ (fun _ _ => absurd) (fun signal => .inl)
        (n.plain_body.relays fun _ => id) (n.plain_body.ownTree _) _
      · intro i signal hmay
        exact .inr ⟨_, List.get_mem _ i, hmay⟩
      · intro i
        exact ih _ (List.get_mem _ i)

/-- Calls end with signals of their arguments only. -/
theorem answerCourse_relays (limits : Limits) (budget : Nat) :
  (answerCourse limits budget).Relays
  := by
  induction budget with
  | zero =>
      intro callee s
      rw [answerCourse]
      cases s.store.bodyOf callee with
      | error e =>
          intro _ signal hsignal
          cases hsignal
      | ok body =>
          intro _ signal hsignal
          cases hsignal
  | succ budget ih =>
      intro callee s
      rw [answerCourse]
      cases hbody : s.store.bodyOf callee with
      | error e =>
          intro _ signal hsignal
          cases hsignal
      | ok body =>
          simp only
          split
          · intro _ signal hsignal
            cases hsignal
          · rw [Counted.calling_eq_activity]
            refine ((Activity.call callee body).course_signalsOnly s fun hcall => ?_).mono
              fun signal h => h.1
            have hrelaying : body.Relaying :=
              hcall.body (fun h => (h.plain fun _ => False).relays fun _ => id) hbody
            refine Body.course_signalsOnly ih ?_ ?_ (fun _ _ => absurd) (fun _ => False.elim)
              hrelaying ?_ _
            · intro i signal hmay
              exact ⟨_, List.get_mem _ i, hmay⟩
            · intro i
              exact Node.course_signalsOnly ih _
            · apply Body.always_ownTree
              exact Node.course_signalsOnly ih

end Runs

namespace Context

/-- The evaluation of a tree ends with a return only if it is free in the tree, and terminates
only with the scope of a node in the tree that terminates.  So if every node in the tree that
returns is in a block that takes the return, then the evaluation does not end with a return.
The functions that are called are eager or make no signals of their own. -/
theorem signals_have_origin (c : Context) {n : Node}
    (hcalls : CallsOnly Body.Relaying (c.course n).events) :
  (∀ v s, (c.evaluate n).1 = .ok (.returning v s) → s ∈ n.freeReturns)
    ∧ (∀ v s, (c.evaluate n).1 = .ok (.terminating v s) →
      ∃ expression enclosing, Node.Occurs (.terminating expression s) enclosing n)
    ∧ ((∀ expression s enclosing, Node.Occurs (.returning expression s) enclosing n →
        ∃ block ∈ enclosing, (Activity.node block).Takes s) →
      ∀ v s, (c.evaluate n).1 ≠ .ok (.returning v s))
  := by
  have hsignals : ∀ signal, Result.signal? (c.evaluate n).1 = some signal → n.MaySignal signal := by
    rw [c.evaluate_eq_course]
    apply n.course_signalsOnly (answerCourse_relays c.limits _) c.counted hcalls
  refine ⟨?_, ?_, ?_⟩
  · intro v s h
    apply hsignals (.returning s)
    rw [h]
    rfl
  · intro v s h
    apply hsignals (.terminating s)
    rw [h]
    rfl
  · intro hin v s h
    have hfree : s ∈ n.freeReturns := by
      apply hsignals (.returning s)
      rw [h]
      rfl
    obtain ⟨expression, enclosing, hoccurs, hpassed⟩ := Node.mem_freeReturns_iff.mp hfree
    obtain ⟨block, hblock, htakes⟩ := hin expression s enclosing hoccurs
    exact hpassed block hblock htakes

/-- A return in an argument of a function passes a block with another scope. -/
theorem signals_have_origin_in_argument :
  ∃ (c : Context) (n : Node) (v : Value) (s : Option Scope),
    CallsOnly Body.Relaying (c.course n).events ∧ (c.evaluate n).1 = .ok (.returning v s)
      ∧ s ∈ n.freeReturns
  := by
  let c := ((root .standard).register "list" (.list .any)).2
  let value : Node := .literal (.integer 2)
  let back : Node := .returning value (some ⟨1⟩)
  let call : Node := .call "list" [back] none
  let n : Node := .block [call] (some ⟨2⟩)
  let body : Activity := .call (.function "list" [back] none) ((Function.list .any).body 1 none)
  let returned : Result := .ok (.returning (.integer 2) (some ⟨1⟩))
  have hevents : (c.course n).events
      = [.starts (.node n), .starts (.node call), .starts body, .starts (.node back),
        .starts (.node value), .ends (.node value) (proceed (.integer 2)),
        .ends (.node back) returned, .ends body returned, .ends (.node call) returned,
        .ends (.node n) returned] :=
    rfl
  have hcalls : CallsOnly Body.Relaying (c.course n).events := by
    intro a ha
    rw [hevents] at ha
    simp only [List.mem_cons, Event.starts.injEq, reduceCtorEq, or_false, List.not_mem_nil] at ha
    obtain rfl | rfl | rfl | rfl | rfl := ha
    · trivial
    · trivial
    · exact .inl ⟨_, _, rfl⟩
    · trivial
    · trivial
  have hreturned : (c.evaluate n).1 = returned := rfl
  obtain ⟨hreturns, -, -⟩ := c.signals_have_origin hcalls
  exact ⟨c, n, _, _, hcalls, hreturned, hreturns _ _ hreturned⟩

/-- It is not enough that the functions which are called end with nothing but what they have
received: one that looks into a block gets a return which the block would have taken.  Nor is
it enough that the functions which the tree names do: one of them may call another that makes
a return. -/
theorem not_signals_have_origin :
  (¬ ∀ (c : Context) (n : Node), CallsOnly Body.Passing (c.course n).events →
      ∀ v s, (c.evaluate n).1 = .ok (.returning v s) → s ∈ n.freeReturns)
    ∧ ¬ ∀ (c : Context) (n : Node), c.store.NamesOnly Body.Passing n →
      ∀ v s, (c.evaluate n).1 = .ok (.returning v s) → s ∈ n.freeReturns
  := by
  constructor
  · intro h
    let c := ((root .standard).register "unwrap" (.unwrap .any)).2
    let value : Node := .literal (.integer 7)
    let back : Node := .returning value none
    let block : Node := .block [back] (some ⟨3⟩)
    let n : Node := .call "unwrap" [block] none
    let body : Activity := .call (.function "unwrap" [block] none)
      ((Function.unwrap .any).body 1 none)
    let returned : Result := .ok (.returning (.integer 7) none)
    have hevents : (c.course n).events
        = [.starts (.node n), .starts body, .starts (.node back), .starts (.node value),
          .ends (.node value) (proceed (.integer 7)), .ends (.node back) returned,
          .ends body returned, .ends (.node n) returned] :=
      rfl
    have hcalls : CallsOnly Body.Passing (c.course n).events := by
      intro a ha
      rw [hevents] at ha
      simp only [List.mem_cons, Event.starts.injEq, reduceCtorEq, or_false,
        List.not_mem_nil] at ha
      obtain rfl | rfl | rfl | rfl := ha
      · trivial
      · exact .inr (Function.passing_unwrap .any 1 none)
      · trivial
      · trivial
    exact absurd (h c n hcalls (.integer 7) none rfl) List.not_mem_nil
  · intro h
    let c := (((root .standard).register "pass" (.forward .any "return")).2.register "return"
      (.returning .any)).2
    let n : Node := .call "pass" [.literal (.integer 7)] none
    have hpassing : c.store.NamesOnly Body.Passing n :=
      Store.namesOnly_call rfl (Function.passing_forward .any "return") [.integer 7] none
    exact absurd (h c n hpassing (.integer 7) none rfl) List.not_mem_nil

end Context

end Stencil
