import Stencil.Proofs.ShortCircuit

/-!
# The kinds of expressions

Which kind of value an expression gives can be said before it is evaluated, from the kinds of its
constant variables (`Node.kind?`).  An expression without a kind gives no value, and the value that
an expression gives is of the kind of the expression (`Context.kind_of_evaluate`).

An `AND` or `OR` may give a value though its right operand could not, and has a kind in any case.
Everything else needs the values of all its parts: operators those of both operands, and members
those of all arguments that they accept (`Member.demands`).
-/

namespace Stencil

/-! ### Kinds of operators and members -/

/-- The kind of the common form of two numbers. -/
def Kind.common? : Kind → Kind → Option Kind
  | integer, integer => some integer
  | double, double => some double
  | integer, double => some double
  | double, integer => some double
  | _, _ => none

/-- The kind that an operator gives for operands of the given kinds, if it applies to them. -/
def Operator.kind? : Operator → Kind → Kind → Option Kind
  | add, a, b => some ((a.common? b).getD .string)
  | sub, a, b => a.common? b
  | mul, a, b => a.common? b
  | mod, a, b => a.common? b
  | div, a, b => (a.common? b).map fun _ => .double
  | floorDiv, a, b => (a.common? b).map fun _ => .integer
  | _, _, _ => some .boolean

/-- The kind that a member gives for receivers of the given kind, if they have the member. -/
def Member.kind? (receiver : Kind) (name : String) : Option Kind :=
  match receiver with
  | .string =>
      if name = "contains" then some .boolean
      else if name ∈ ["lower", "upper", "trim", "repeat", "replace"] then some .string
      else none
  | .double => if name ∈ ["round", "floor", "ceil"] then some .integer else none
  | .integer => if name = "abs" then some .integer else none
  | .boolean => none

/-- The kind of the numbers in a pair. -/
def NumberPair.kind : NumberPair → Kind
  | integers _ _ => .integer
  | doubles _ _ => .double

theorem NumberPair.kind_of? (a b : Value) :
  (of? a b).map kind = a.kind.common? b.kind
  := by cases a <;> cases b <;> rfl

section Operators

variable {a b v : Value}

theorem exists_of_bind_eq_ok {α β : Type} {x : Attempt α} {f : α → Attempt β} {y : β}
    (h : x.bind f = .ok y) :
  ∃ z, x = .ok z ∧ f z = .ok y
  := by
  cases x with
  | error e => cases h
  | ok z => exact ⟨z, rfl, h⟩

theorem exists_of_map_eq_ok {α β : Type} {x : Attempt α} {f : α → β} {y : β}
    (h : x.map f = .ok y) :
  ∃ z, x = .ok z ∧ f z = y
  := by
  cases x with
  | error e => cases h
  | ok z => exact ⟨z, rfl, Except.ok.inj h⟩

/-- Values that are brought to a common form have a common kind. -/
theorem Value.common?_of_numbers {operation : String} {pair : NumberPair}
    (h : a.numbers operation b = .ok pair) :
  a.kind.common? b.kind = some pair.kind
  := by
  rw [← NumberPair.kind_of?]
  rw [numbers] at h
  cases hpair : NumberPair.of? a b with
  | none =>
      rw [hpair] at h
      cases h
  | some p =>
      rw [hpair] at h
      obtain rfl := Except.ok.inj h
      rfl

/-- Arithmetic stays among the integers, or among the doubles. -/
theorem NumberPair.kind_of_arithmetic {compute : NumberPair → Attempt Value}
    {onIntegers : Int64 → Int64 → Attempt Int64} {onDoubles : Float → Float → Float}
    (hintegers : ∀ m n, compute (integers m n) = (onIntegers m n).map .integer)
    (hdoubles : ∀ x y, compute (doubles x y) = .ok (.double (onDoubles x y)))
    {pair : NumberPair} (h : compute pair = .ok v) :
  v.kind = pair.kind
  := by
  cases pair with
  | integers m n =>
      rw [hintegers] at h
      obtain ⟨k, -, rfl⟩ := exists_of_map_eq_ok h
      rfl
  | doubles x y =>
      rw [hdoubles] at h
      obtain rfl := Except.ok.inj h
      rfl

theorem NumberPair.kind_divide (pair : NumberPair) :
  pair.divide.kind = .double
  := by cases pair <;> rfl

theorem NumberPair.kind_of_floorDivide {pair : NumberPair} (h : pair.floorDivide = .ok v) :
  v.kind = .integer
  := by
  cases pair with
  | integers m n =>
      obtain ⟨k, -, rfl⟩ := exists_of_map_eq_ok h
      rfl
  | doubles x y =>
      rw [floorDivide] at h
      split at h
      · cases h
      · obtain ⟨k, -, rfl⟩ := exists_of_map_eq_ok h
        rfl

/-- What an operator gives is of the kind that it gives for the kinds of its operands. -/
theorem Operator.kind?_of_evaluate {op : Operator} (h : op.evaluate a b = .ok v) :
  op.kind? a.kind b.kind = some v.kind
  := by
  cases op with
  | add =>
      rw [evaluate, Value.add] at h
      rw [kind?, ← NumberPair.kind_of?]
      cases hpair : NumberPair.of? a b with
      | none =>
          rw [hpair] at h
          obtain rfl := Except.ok.inj h
          rfl
      | some pair =>
          rw [hpair] at h
          have hv : pair.add = .ok v := h
          rw [NumberPair.kind_of_arithmetic (fun _ _ => rfl) (fun _ _ => rfl) hv]
          rfl
  | sub | mul | mod =>
      obtain ⟨pair, hpair, hv⟩ := exists_of_bind_eq_ok h
      rw [kind?, Value.common?_of_numbers hpair,
        NumberPair.kind_of_arithmetic (fun _ _ => rfl) (fun _ _ => rfl) hv]
  | div =>
      obtain ⟨pair, hpair, rfl⟩ := exists_of_map_eq_ok h
      rw [kind?, Value.common?_of_numbers hpair, pair.kind_divide]
      rfl
  | floorDiv =>
      obtain ⟨pair, hpair, hv⟩ := exists_of_bind_eq_ok h
      rw [kind?, Value.common?_of_numbers hpair, NumberPair.kind_of_floorDivide hv]
      rfl
  | eq | ne =>
      obtain rfl := Except.ok.inj h
      rfl
  | gt | lt | ge | le =>
      obtain ⟨pair, -, rfl⟩ := exists_of_map_eq_ok h
      rfl
  | gate g =>
      obtain ⟨s, t, -, -, rfl⟩ := Value.gate_eq_ok h
      rfl

end Operators

section Members

variable {count : Nat} {limits : Limits}

/-- If what follows gives only values with a property, then so does checking the length first. -/
theorem Body.Gives.withinLimit {P : Value → Prop} {operation source : String} {length : Nat}
    {next : Unit → Body count} (h : (next ()).Gives limits P) :
  (Member.withinLimit operation source length next).Gives limits P
  := by
  apply Member.withinLimit_elim (motive := fun body => body.Gives limits P) h gives_error
  intro next hnext
  apply hnext

theorem Body.gives_done {P : Value → Prop} {v : Value} (h : P v) :
  (done (proceed v) : Body count).Gives limits P
  := by
  intro w hw
  rwa [← Outcome.proceed.inj (Except.ok.inj hw)]

theorem Body.gives_integer {x : Attempt Int64} :
  (done (.ofValue (x.map .integer)) : Body count).Gives limits fun v => v.kind = .integer
  := by
  intro v hv
  obtain ⟨n, -, rfl⟩ := exists_of_map_eq_ok (Result.ofValue_eq_proceed.mp hv)
  rfl

/-- Every member gives only values of one kind. -/
theorem Member.kind?_of_mem {m : Member} {receiver : Kind} (h : m ∈ ofKind receiver) :
  ∃ k, kind? receiver m.name = some k
    ∧ ∀ c : Invocation, (m.body c count).Gives limits fun v => v.kind = k
  := by
  cases receiver with
  | string =>
      simp only [ofKind, ofString, List.mem_cons, List.not_mem_nil, or_false] at h
      obtain rfl | rfl | rfl | rfl | rfl | rfl := h
      · exact ⟨.string, rfl, fun c => Body.gives_done rfl⟩
      · exact ⟨.string, rfl, fun c => Body.gives_done rfl⟩
      · exact ⟨.string, rfl, fun c => Body.gives_done rfl⟩
      · refine ⟨.boolean, rfl, fun c => ?_⟩
        apply c.gives_argument 0
        intro pattern
        exact Body.gives_done rfl
      · refine ⟨.string, rfl, fun c => ?_⟩
        apply c.gives_argument 0
        intro v
        cases v with
        | integer n =>
            simp only
            split
            · apply Body.gives_error
            · apply Body.Gives.withinLimit
              exact Body.gives_done rfl
        | string text => apply Body.gives_error
        | boolean b => apply Body.gives_error
        | double d => apply Body.gives_error
      · refine ⟨.string, rfl, fun c => ?_⟩
        apply c.gives_argument 0
        intro pattern
        apply c.gives_argument 1
        intro new
        apply Body.Gives.withinLimit
        exact Body.gives_done rfl
  | boolean => cases h
  | double =>
      have hrounding : ∀ name round (c : Invocation),
          ((rounding name round).body c count).Gives limits fun v => v.kind = .integer := by
        intro name round c
        simp only [rounding]
        split
        · apply Body.gives_integer
        · apply Body.gives_error
      simp only [ofKind, ofDouble, List.mem_cons, List.not_mem_nil, or_false] at h
      obtain rfl | rfl | rfl := h
      · exact ⟨.integer, rfl, hrounding _ _⟩
      · exact ⟨.integer, rfl, hrounding _ _⟩
      · exact ⟨.integer, rfl, hrounding _ _⟩
  | integer =>
      obtain rfl := List.mem_singleton.mp h
      refine ⟨.integer, rfl, fun c => ?_⟩
      simp only [abs]
      split
      · apply Body.gives_integer
      · apply Body.gives_error

end Members

/-! ### Kinds of trees -/

mutual

/-- The kind of an expression, where the kinds of variables are given.  No other tree has one. -/
def Node.kind? (kinds : String → Option Kind) : Node → Option Kind
  | .literal v => some v.kind
  | .reference name => kinds name
  | .dot receiver member args _ =>
      if Node.haveKinds kinds args then
        (receiver.kind? kinds).bind fun k => Member.kind? k member
      else none
  | .binary op left right =>
      if op.shortCircuits then some .boolean
      else
        (left.kind? kinds).bind fun a => (right.kind? kinds).bind fun b => op.kind? a b
  | .negation operand => (operand.kind? kinds).map fun _ => .boolean
  | _ => none

/-- Whether all of several expressions have a kind. -/
def Node.haveKinds (kinds : String → Option Kind) : List Node → Bool
  | [] => true
  | n :: rest => (n.kind? kinds).isSome && Node.haveKinds kinds rest

end

theorem Node.haveKinds_iff {kinds : String → Option Kind} {nodes : List Node} :
  haveKinds kinds nodes = true ↔ ∀ n ∈ nodes, (n.kind? kinds).isSome = true
  := by
  induction nodes with
  | nil => simp [haveKinds]
  | cons n rest ih => simp [haveKinds, ih]

/-- The kinds of the constant variables. -/
def Environment.kindOf? (e : Environment) (name : String) : Option Kind :=
  match e.resolve? name with
  | some (.constant v) => some v.kind
  | _ => none

/-! ### What members ask of their arguments -/

/-- The body gives a value only after the argument has given one. -/
inductive Body.Demands {count : Nat} (i : Fin count) : Body count → Prop where
  | here {next : Value → Body count} : Demands i (.value 0 (.arg i) next)
  | later (j : Fin count) {next : Value → Body count} (h : ∀ v, Demands i (next v)) :
      Demands i (.value 0 (.arg j) next)

/-- Members ask for all the arguments that they accept. -/
theorem Member.demands {m : Member} {receiver : Kind} (h : m ∈ ofKind receiver) {count : Nat}
    (haccepts : m.arity.accepts count = true) (c : Invocation) (i : Fin count) :
  (m.body c count).Demands i
  := by
  -- A member that takes no arguments has none that it could ask for.
  by_cases hnullary : m.arity = .nullary
  · rw [hnullary, Arity.nullary, Arity.accepts_exactly] at haccepts
    subst haccepts
    apply i.elim0
  · cases receiver with
    | string =>
        simp only [ofKind, ofString, List.mem_cons, List.not_mem_nil, or_false] at h
        obtain rfl | rfl | rfl | rfl | rfl | rfl := h
        · cases hnullary rfl
        · cases hnullary rfl
        · cases hnullary rfl
        · obtain rfl : count = 1 := Arity.accepts_exactly.mp haccepts
          obtain rfl : i = 0 := Subsingleton.elim _ _
          exact .here
        · obtain rfl : count = 1 := Arity.accepts_exactly.mp haccepts
          obtain rfl : i = 0 := Subsingleton.elim _ _
          exact .here
        · obtain rfl : count = 2 := Arity.accepts_exactly.mp haccepts
          cases i using Fin.cases with
          | zero => exact .here
          | succ i =>
              obtain rfl : i = 0 := Subsingleton.elim _ _
              exact .later 0 fun pattern => .here
    | boolean => cases h
    | double =>
        simp only [ofKind, ofDouble, List.mem_cons, List.not_mem_nil, or_false] at h
        obtain rfl | rfl | rfl := h <;> cases hnullary rfl
    | integer =>
        obtain rfl := List.mem_singleton.mp h
        cases hnullary rfl

/-! ### Soundness -/

section Soundness

variable {limits : Limits} {e : Environment}

/-- A call gives a value exactly if it finds its body and room for one more open call, and the body
gives the value. -/
theorem answer_eq_proceed_iff {budget depth : Nat} {callee : Call Node} {v : Value}
    {e' : Environment} :
  answer limits budget depth callee e = (proceed v, e')
    ↔ ∃ rest body a, budget = rest + 1 ∧ e.store.bodyOf callee = .ok body
      ∧ body.run (answer limits rest (depth + 1)) limits (depth + 1) callee.args.get
          ⟨e.store, [e.locals]⟩ = (proceed v, a)
      ∧ e' = a.environment 0
  := by
  simp only [← answerDeciding_eq, ← Body.runDeciding_eq]
  apply answerDeciding_eq_proceed_iff

section Bodies

variable {answer : Answer} {depth count : Nat} {args : Fin count → Node} {i : Fin count}
  {v : Value} {a a' : Activation}

/-- A body that goes on with the value of an argument gives a value if the argument does and what
follows gives it. -/
theorem Body.run_value {next : Value → Body count} :
  (value 0 (.arg i) next).run answer limits depth args a = (proceed v, a')
    ↔ ∃ w e', (args i).evaluate answer (a.environment 0) = (proceed w, e')
      ∧ (next w).run answer limits depth args (a.update 0 e') = (proceed v, a')
  := by
  simp only [← runDeciding_eq, ← Node.evaluateDeciding_eq]
  apply runDeciding_value

/-- A body that computes leaves its contexts as they are, if its arguments do. -/
theorem Body.Computes.run_eq
    (hargs : ∀ i w e', (args i).evaluate answer e = (proceed w, e') → e' = e)
    {body : Body count} (h : body.Computes)
    (hrun : body.run answer limits depth args ⟨e.store, [e.locals]⟩ = (proceed v, a)) :
  a = ⟨e.store, [e.locals]⟩
  := by
  induction h with
  | done result h =>
      rw [run] at hrun
      apply (Prod.mk.inj hrun).2.symm
  | value i h ih =>
      obtain ⟨w, e', hw, hnext⟩ := run_value.mp hrun
      obtain rfl := hargs i w e' hw
      apply ih w hnext
  | withinLimit operation source length h ih =>
      rw [run_withinLimit] at hrun
      cases hrefused : limits.refusal? operation source length with
      | some f =>
          rw [hrefused] at hrun
          cases hrun
      | none =>
          rw [hrefused] at hrun
          apply ih hrun

/-- If a body that asks for an argument gives a value, then so does the argument. -/
theorem Body.Demands.exists_of_run
    (hargs : ∀ i w e', (args i).evaluate answer e = (proceed w, e') → e' = e)
    {body : Body count} (h : body.Demands i)
    (hrun : body.run answer limits depth args ⟨e.store, [e.locals]⟩ = (proceed v, a)) :
  ∃ w e', (args i).evaluate answer e = (proceed w, e')
  := by
  induction h with
  | here =>
      obtain ⟨w, e', hw, -⟩ := run_value.mp hrun
      exact ⟨w, e', hw⟩
  | later j h ih =>
      obtain ⟨w, e', hw, hnext⟩ := run_value.mp hrun
      obtain rfl := hargs j w e' hw
      apply ih w hnext

end Bodies

theorem Operator.shortCircuits_eq_isSome (op : Operator) :
  op.shortCircuits = op.decidedBy?.isSome
  := by
  rw [decidedBy?]
  cases op.shortCircuits <;> rfl

/-- An expression that gives a value leaves the environment as it is and has a kind, which is that
of the value. -/
theorem Node.Expression.kind?_of_evaluate {n : Node} (h : n.Expression e) {budget depth : Nat}
    {v : Value} {e' : Environment}
    (hv : n.evaluate (answer limits budget depth) e = (proceed v, e')) :
  e' = e ∧ n.kind? e.kindOf? = some v.kind
  := by
  induction h generalizing budget depth v e' with
  | literal w =>
      rw [evaluate] at hv
      obtain ⟨hw, rfl⟩ := Prod.mk.inj hv
      obtain rfl := Outcome.proceed.inj (Except.ok.inj hw)
      exact ⟨rfl, rfl⟩
  | @reference name w h =>
      rw [evaluate, Environment.read_of_constant h] at hv
      obtain ⟨hw, rfl⟩ := Prod.mk.inj hv
      obtain rfl := Outcome.proceed.inj (Except.ok.inj hw)
      rw [kind?, Environment.kindOf?, h]
      exact ⟨rfl, rfl⟩
  | @dot receiver member args scope hreceiver hargs ihreceiver ihargs =>
      rw [evaluate] at hv
      obtain ⟨w, env, hw, hcall⟩ := exists_of_proceeding_eq hv
      obtain ⟨rfl, hkind⟩ := ihreceiver hw
      obtain ⟨rest, body, a, rfl, hbody, hrun, rfl⟩ := answer_eq_proceed_iff.mp hcall
      obtain ⟨m, hfind, haccepts, rfl⟩ := Store.exists_of_bodyOf_member hbody
      have hmem := List.mem_of_find?_eq_some hfind
      have hsame : ∀ (i : Fin args.length) w' e',
          (args.get i).evaluate (answer limits rest (depth + 1)) env = (proceed w', e') →
            e' = env := fun i _ _ h => (ihargs _ (List.get_mem _ i) h).1
      obtain rfl := (Member.computes_of_mem_ofKind hmem _).run_eq hsame hrun
      have hkinds : haveKinds env.kindOf? args = true := by
        rw [haveKinds_iff]
        intro arg harg
        obtain ⟨i, rfl⟩ := List.get_of_mem harg
        obtain ⟨w', e', hw'⟩ := (Member.demands hmem haccepts _ i).exists_of_run hsame hrun
        rw [(ihargs _ harg hw').2]
        rfl
      obtain ⟨k, hk, hgives⟩ := Member.kind?_of_mem hmem
      have hv : v.kind = k := (hgives _).run _ _ _ _ (congrArg Prod.fst hrun)
      rw [Member.name_of_find? hfind] at hk
      rw [kind?, if_pos hkinds, hkind, Option.bind_some, hk, hv]
      exact ⟨rfl, rfl⟩
  | @binary op left right hleft hright ihleft ihright =>
      rw [evaluate] at hv
      obtain ⟨a, env, ha, hrest⟩ := exists_of_proceeding_eq hv
      obtain ⟨rfl, hleft⟩ := ihleft ha
      -- What the operator gives once both operands are evaluated.
      have hboth : proceeding (right.evaluate (answer limits budget depth) env)
            (fun b env => (.ofValue (op.evaluate a b), env)) = (proceed v, e') →
          e' = env ∧ ∃ b, right.kind? env.kindOf? = some b ∧ op.kind? a.kind b = some v.kind := by
        intro h
        obtain ⟨b, env', hb, hgives⟩ := exists_of_proceeding_eq h
        obtain ⟨rfl, hright⟩ := ihright hb
        obtain ⟨hresult, rfl⟩ := Prod.mk.inj hgives
        have hop := Operator.kind?_of_evaluate (Result.ofValue_eq_proceed.mp hresult)
        exact ⟨rfl, b.kind, hright, hop⟩
      cases hop : op.decidedBy? with
      | none =>
          rw [hop] at hrest
          obtain ⟨rfl, b, hb, hkind⟩ := hboth hrest
          rw [kind?, op.shortCircuits_eq_isSome, hop, hleft, hb]
          exact ⟨rfl, hkind⟩
      | some deciding =>
          rw [hop] at hrest
          rw [kind?, op.shortCircuits_eq_isSome, hop]
          obtain ⟨g, rfl⟩ : ∃ g, op = .gate g := by
            rcases Operator.decidedBy?_eq_some_iff.mp hop with ⟨rfl, -⟩ | ⟨rfl, -⟩
            · exact ⟨.and, rfl⟩
            · exact ⟨.or, rfl⟩
          simp only at hrest
          split at hrest
          · cases hrest
          · rename_i decided _
            split at hrest
            · obtain ⟨hresult, rfl⟩ := Prod.mk.inj hrest
              obtain rfl := Outcome.proceed.inj (Except.ok.inj hresult)
              exact ⟨rfl, rfl⟩
            · obtain ⟨rfl, b, -, hkind⟩ := hboth hrest
              exact ⟨rfl, hkind⟩
  | @negation operand h ih =>
      rw [evaluate] at hv
      obtain ⟨w, env, hw, hgives⟩ := exists_of_proceeding_eq hv
      obtain ⟨rfl, hoperand⟩ := ih hw
      obtain ⟨hresult, rfl⟩ := Prod.mk.inj hgives
      obtain ⟨s, t, -, -, rfl⟩ := Value.gate_eq_ok (Result.ofValue_eq_proceed.mp hresult)
      rw [kind?, hoperand]
      exact ⟨rfl, rfl⟩

end Soundness

namespace Context

/-- An expression that gives a value has a kind, and the value is of that kind: the kinds of
literals and constant variables are those of their values, and those of operators and members follow
from the kinds of what they are applied to. -/
theorem kind_of_evaluate (c : Context) {n : Node} (h : n.Expression c.environment) {v : Value}
    (hv : (c.evaluate n).1 = proceed v) :
  n.kind? c.environment.kindOf? = some v.kind
  := (h.kind?_of_evaluate (Prod.ext hv rfl)).2

/-- The operator gives a boolean though its right operand, which is not evaluated, has no kind. -/
theorem kind_of_evaluate_of_and :
  ∃ (c : Context) (left right n : Node),
    n = .binary (.gate .and) left right ∧ n.Expression c.environment
      ∧ right.kind? c.environment.kindOf? = none
      ∧ (c.evaluate n).1 = proceed (.boolean false)
      ∧ n.kind? c.environment.kindOf? = some .boolean
  := by
  let c := (root .standard).bind "x" (.constant (.integer 2))
  let quotient : Node := .binary .floorDiv (.literal (.integer 7)) (.reference "x")
  let left : Node := .negation (.binary .ge quotient (.literal (.integer 3)))
  let right : Node := .binary .sub (.literal (.string "a")) (.literal (.integer 1))
  let n : Node := .binary (.gate .and) left right
  have hquotient : quotient.Expression c.environment :=
    .binary _ (.literal _) (.reference (v := .integer 2) rfl)
  have hexpression : n.Expression c.environment :=
    .binary _ (.negation (.binary _ hquotient (.literal _))) (.binary _ (.literal _) (.literal _))
  have hvalue : (c.evaluate n).1 = proceed (.boolean false) := by rfl
  exact ⟨c, left, right, n, rfl, hexpression, rfl, hvalue, c.kind_of_evaluate hexpression hvalue⟩

end Context

end Stencil
