import Stencil.Proofs.Course.Activity
import Stencil.Proofs.Node
import Stencil.Proofs.Outcome

/-!
# Plain bodies and bodies that compute

A condition on what a body does next is asked of all that it may go on with by
`Body.Always`.  A plain body evaluates only its arguments, hands back what blocks, looks at
the limits only to refuse a text that is too long, and ends with signals of its own only as
stated.  The bodies of nodes are plain (`Node.plain_body`).  Those of members and of eager
functions are plain as well and do nothing but compute (`Member.computes_of_mem_ofKind`,
`Function.computes_eager`), so that whatever is shown of bodies that compute holds for all of
them.  The other functions are up to the application: `CallsOnly P` says of the events of a run
that the functions which were called are eager or have bodies with `P`.  That the functions which
a tree names have such bodies (`Store.NamesOnly`) says less, because these may call others.
-/

namespace Stencil

/-- How an outcome that blocks unwinds. -/
inductive Signal where
  | returning (scope : Option Scope)
  | terminating (scope : Option Scope)
deriving DecidableEq

/-- The signal of a result, if it is an outcome that blocks. -/
def Result.signal? : Result → Option Signal
  | .ok (.returning _ scope) => some (.returning scope)
  | .ok (.terminating _ scope) => some (.terminating scope)
  | _ => none

theorem Result.signal?_ofValue (v : Attempt Value) :
  Result.signal? (.ofValue v) = none
  := by cases v <;> rfl

/-! ### Texts within the limit -/

/-- What the limits have against building a text of the given length from another one. -/
def Limits.refusal? (limits : Limits) (operation source : String) (length : Nat) : Option Failure :=
  if Size.largest.toNat < length then some ⟨.integerOverflow operation, []⟩
  else if limits.maxStringLen.toNat < length then
    some ⟨.stringTooLong operation length limits.maxStringLen, []⟩
  else if Size.capacity.toNat < length ∧ source.utf8ByteSize < length then
    some ⟨.capacityOverflow, []⟩
  else none

/-- Where the limits are known, a body that looks at the limit fails or goes on. -/
theorem Member.apply_withinLimit {α : Type} {count : Nat} {limits : Limits} (f : Body count → α)
    (hlimits : ∀ next, f (.limits next) = f (next limits)) (operation source : String)
    (length : Nat) (next : Unit → Body count) :
  f (withinLimit operation source length next)
    = (limits.refusal? operation source length).elim (f (next ())) fun e => f (.done (.error e))
  := by
  rw [withinLimit, Limits.refusal?]
  split
  · rfl
  · rw [hlimits]
    split
    · rfl
    · split <;> rfl

section Limited

variable {limits : Limits} {count : Nat} {args : Fin count → Node} (operation source : String)
  (length : Nat) (next : Unit → Body count)

theorem Body.run_withinLimit {answer : Answer} {depth : Nat} (a : Activation) :
  (Member.withinLimit operation source length next).run answer limits depth args a
    = (limits.refusal? operation source length).elim ((next ()).run answer limits depth args a)
        fun e => (.error e, a)
  := Member.apply_withinLimit (fun body => body.run answer limits depth args a) (fun _ => rfl)
    _ _ _ _

theorem Body.course_withinLimit {answer : AnswerCourse} (a : CountedActivation) :
  (Member.withinLimit operation source length next).course answer limits args a
    = (limits.refusal? operation source length).elim ((next ()).course answer limits args a)
        fun e => .still (.error e) a
  := Member.apply_withinLimit (fun body => body.course answer limits args a) (fun _ => rfl)
    _ _ _ _

end Limited

/-! ### Bodies -/

namespace Body

/-- The body and all that it may go on with satisfy `P`. -/
def Always (P : {count : Nat} → Body count → Prop) {count : Nat} : Body count → Prop
  | .done result => P (.done result : Body count)
  | .inspect i next => P (.inspect i next) ∧ ∀ n, (next n).Always P
  | .evaluate context operand next =>
      P (.evaluate context operand next) ∧ ∀ r, (next r).Always P
  | .call context callee next => P (.call context callee next) ∧ ∀ r, (next r).Always P
  | .read context name next => P (.read context name next) ∧ ∀ v, (next v).Always P
  | .isGlobal name next => P (.isGlobal name next) ∧ ∀ b, (next b).Always P
  | .isLocal context name next => P (.isLocal context name next) ∧ ∀ b, (next b).Always P
  | .arity name next => P (.arity name next) ∧ ∀ arity, (next arity).Always P
  | .bind context name v next => P (.bind context name v next) ∧ next.Always P
  | .define name v next => P (.define name v next) ∧ next.Always P
  | .register name accepted body next =>
      P (.register name accepted body next) ∧ ∀ outcome, (next outcome).Always P
  | .fork context next => P (.fork context next) ∧ ∀ context, (next context).Always P
  | .depth next => P (.depth next) ∧ ∀ depth, (next depth).Always P
  | .limits next => P (.limits next) ∧ ∀ limits, (next limits).Always P
termination_by structural body => body

theorem always_of_forall {P : {count : Nat} → Body count → Prop} {count : Nat}
    (h : ∀ {count : Nat} (body : Body count), P body) (body : Body count) :
  body.Always P
  := by
  induction body with
  | done result => apply h
  | inspect i next ih => exact ⟨h _, ih⟩
  | evaluate context operand next ih => exact ⟨h _, ih⟩
  | call context callee next ih => exact ⟨h _, ih⟩
  | read context name next ih => exact ⟨h _, ih⟩
  | isGlobal name next ih => exact ⟨h _, ih⟩
  | isLocal context name next ih => exact ⟨h _, ih⟩
  | arity name next ih => exact ⟨h _, ih⟩
  | bind context name v next ih => exact ⟨h _, ih⟩
  | define name v next ih => exact ⟨h _, ih⟩
  | register name accepted body next _ ih => exact ⟨h _, ih⟩
  | fork context next ih => exact ⟨h _, ih⟩
  | depth next ih => exact ⟨h _, ih⟩
  | limits next ih => exact ⟨h _, ih⟩

theorem Always.mono {P Q : {count : Nat} → Body count → Prop}
    (hPQ : ∀ {count : Nat} {body : Body count}, P body → Q body) {count : Nat} {body : Body count}
    (h : body.Always P) :
  body.Always Q
  := by
  induction body with
  | done result => exact hPQ h
  | inspect i next ih => exact ⟨hPQ h.1, fun n => ih n (h.2 n)⟩
  | evaluate context operand next ih => exact ⟨hPQ h.1, fun r => ih r (h.2 r)⟩
  | call context callee next ih => exact ⟨hPQ h.1, fun r => ih r (h.2 r)⟩
  | read context name next ih => exact ⟨hPQ h.1, fun v => ih v (h.2 v)⟩
  | isGlobal name next ih => exact ⟨hPQ h.1, fun b => ih b (h.2 b)⟩
  | isLocal context name next ih => exact ⟨hPQ h.1, fun b => ih b (h.2 b)⟩
  | arity name next ih => exact ⟨hPQ h.1, fun arity => ih arity (h.2 arity)⟩
  | bind context name v next ih => exact ⟨hPQ h.1, ih h.2⟩
  | define name v next ih => exact ⟨hPQ h.1, ih h.2⟩
  | register name accepted body next _ ih =>
      exact ⟨hPQ h.1, fun outcome => ih outcome (h.2 outcome)⟩
  | fork context next ih => exact ⟨hPQ h.1, fun context => ih context (h.2 context)⟩
  | depth next ih => exact ⟨hPQ h.1, fun depth => ih depth (h.2 depth)⟩
  | limits next ih => exact ⟨hPQ h.1, fun limits => ih limits (h.2 limits)⟩

theorem Always.resume {P : {count : Nat} → Body count → Prop} {count : Nat}
    {next : Result → Body count} (h : ∀ r, (next r).Always P)
    (hdone : ∀ e, P (.done (.error e) : Body count)) (result : Result) :
  (resume next result).Always P
  := resume_elim h hdone result

theorem always_value {P : {count : Nat} → Body count → Prop} {count : Nat} {context : Nat}
    {operand : Operand count} {next : Value → Body count} (hvalue : P (value context operand next))
    (hdone : ∀ r, P (.done r : Body count)) (h : ∀ v, (next v).Always P) :
  (value context operand next).Always P
  := by
  constructor
  · apply hvalue
  · intro r
    match r with
    | .ok (.proceed v) => apply h
    | .ok (.returning _ _) | .ok (.terminating _ _) | .error _ => apply hdone

theorem always_concatenation {P : {count : Nat} → Body count → Prop} {count context : Nat}
    (hvalue : ∀ (operand : Operand count) next, P (value context operand next))
    (hdone : ∀ r, P (.done r : Body count)) (operands : List (Operand count)) (text : String) :
  (concatenation context operands text).Always P
  := by
  induction operands generalizing text with
  | nil => exact hdone _
  | cons operand rest ih =>
      rw [concatenation]
      apply always_value (hvalue operand _) hdone
      intro v
      apply ih

/-- If the body evaluates a tree of its own next, then the tree satisfies `P`. -/
def OwnTree (P : Node → Prop) {count : Nat} : Body count → Prop
  | .evaluate _ (.tree n) _ => P n
  | _ => True

theorem OwnTree.resume {P : Node → Prop} {count : Nat} {next : Result → Body count}
    (h : ∀ r, (next r).Always (OwnTree P)) (result : Result) :
  (resume next result).Always (OwnTree P)
  := Always.resume h (fun _ => trivial) result

/-- What holds of all arguments and of a tree of its own holds of what the body evaluates next. -/
theorem OwnTree.node {P : Node → Prop} {count context : Nat} {operand : Operand count}
    {next : Result → Body count} (h : (evaluate context operand next).OwnTree P)
    {args : Fin count → Node} (hargs : ∀ i, P (args i)) :
  P (operand.node args)
  := by
  cases operand with
  | arg i => apply hargs
  | tree n => apply h

theorem OwnTree.mono {P Q : Node → Prop} (hPQ : ∀ n, P n → Q n) {count : Nat} {body : Body count}
    (h : body.OwnTree P) :
  body.OwnTree Q
  := by
  unfold OwnTree at h ⊢
  split
  · apply hPQ _ h
  · trivial

theorem always_ownTree {P : Node → Prop} (h : ∀ n, P n) {count : Nat} (body : Body count) :
  body.Always (OwnTree P)
  := by
  apply always_of_forall
  intro count body
  unfold OwnTree
  split
  · apply h
  · trivial

/-- The body does nothing but compute: it evaluates arguments in the context of its caller, hands
back what blocks, looks at the limits only to refuse a text that is too long, and ends without a
signal of its own. -/
inductive Computes {count : Nat} : Body count → Prop where
  | done (result : Result) (h : Result.signal? result = none) : Computes (.done result)
  | value (i : Fin count) {next : Value → Body count} (h : ∀ v, Computes (next v)) :
      Computes (.value 0 (.arg i) next)
  | withinLimit (operation source : String) (length : Nat) {next : Unit → Body count}
      (h : Computes (next ())) : Computes (Member.withinLimit operation source length next)

/-- The body is plain, and the signals it may give on its own satisfy `own`. -/
inductive Plain (own : Signal → Prop) {count : Nat} : Body count → Prop where
  | done (result : Result) (h : ∀ signal, Result.signal? result = some signal → own signal) :
      Plain own (.done result)
  | value (context : Nat) (i : Fin count) {next : Value → Body count}
      (h : ∀ v, Plain own (next v)) : Plain own (.value context (.arg i) next)
  | call (context : Nat) (callee : Call (Operand count))
      (h : ∀ operand ∈ callee.args, ∃ i, operand = .arg i) :
      Plain own (.call context callee .done)
  | read (context : Nat) (name : String) {next : Option Value → Body count}
      (h : ∀ v, Plain own (next v)) : Plain own (.read context name next)
  | isGlobal (name : String) {next : Bool → Body count} (h : ∀ b, Plain own (next b)) :
      Plain own (.isGlobal name next)
  | bind (context : Nat) (name : String) (v : Variable) {next : Body count}
      (h : Plain own next) : Plain own (.bind context name v next)
  | fork (context : Nat) {next : Nat → Body count} (h : ∀ inner, Plain own (next inner)) :
      Plain own (.fork context next)
  | withinLimit (operation source : String) (length : Nat) {next : Unit → Body count}
      (h : Plain own (next ())) : Plain own (Member.withinLimit operation source length next)

end Body

section Plain

variable {count : Nat} {own : Signal → Prop}

namespace Body

theorem plain_done {result : Result} (h : Result.signal? result = none) :
  (Body.done result : Body count).Plain own
  := by
  apply Plain.done
  rw [h]
  nofun

/-- Bodies that compute are plain. -/
theorem Computes.plain (own : Signal → Prop) {body : Body count} (h : body.Computes) :
  body.Plain own
  := by
  induction h with
  | done result h => apply plain_done h
  | value i h ih => apply Plain.value 0 i ih
  | withinLimit operation source length h ih => apply Plain.withinLimit operation source length ih

theorem computes_values {operands : List (Operand count)}
    (hoperands : ∀ operand ∈ operands, ∃ i, operand = .arg i) (before : List Value)
    {next : List Value → Body count} (h : ∀ values, (next values).Computes) :
  (values 0 operands before next).Computes
  := by
  induction operands generalizing before with
  | nil => apply h
  | cons operand rest ih =>
      obtain ⟨⟨i, rfl⟩, hrest⟩ := List.forall_mem_cons.mp hoperands
      rw [values]
      apply Computes.value
      intro v
      apply ih hrest

theorem plain_concatenation (context : Nat) {operands : List (Operand count)}
    (hoperands : ∀ operand ∈ operands, ∃ i, operand = .arg i) (text : String) :
  (concatenation context operands text).Plain own
  := by
  induction operands generalizing text with
  | nil => apply plain_done rfl
  | cons operand rest ih =>
      obtain ⟨⟨i, rfl⟩, hrest⟩ := List.forall_mem_cons.mp hoperands
      rw [concatenation]
      apply Plain.value
      intro v
      apply ih hrest

end Body

theorem Operand.exists_of_mem_all {operand : Operand count} (h : operand ∈ Operand.all count) :
  ∃ i, operand = .arg i
  := by
  obtain ⟨i, -, rfl⟩ := List.mem_map.mp h
  exact ⟨i, rfl⟩

theorem Function.computes_eager (arity : Arity) (compute : List Value → Attempt Value)
    (scope : Option Scope) :
  ((eager arity compute).body count scope).Computes
  := by
  apply Body.computes_values fun _ => Operand.exists_of_mem_all
  intro values
  apply Body.Computes.done _ (Result.signal?_ofValue _)

/-- Plain bodies evaluate no trees of their own. -/
theorem Body.Plain.ownTree {body : Body count} (h : body.Plain own) (P : Node → Prop) :
  body.Always (OwnTree P)
  := by
  induction h with
  | done result h => trivial
  | value context i h ih => exact always_value trivial (fun _ => trivial) ih
  | call context callee h => exact ⟨trivial, fun _ => trivial⟩
  | read context name h ih => exact ⟨trivial, ih⟩
  | isGlobal name h ih => exact ⟨trivial, ih⟩
  | bind context name v h ih => exact ⟨trivial, ih⟩
  | fork context h ih => exact ⟨trivial, ih⟩
  | withinLimit operation source length h ih =>
      exact Member.withinLimit_elim ih (fun _ => trivial) (fun hnext => ⟨trivial, hnext⟩) _ _ _

/-! ### Members -/

theorem Invocation.computes_argument (c : Invocation) (i : Nat) {next : Value → Body count}
    (h : ∀ v, (next v).Computes) :
  (c.argument i next).Computes
  := by
  rw [argument]
  split
  · apply Body.Computes.value _ h
  · apply Body.Computes.done _ rfl

namespace Member

theorem computes_of_mem_ofString {m : Member} (h : m ∈ ofString) (c : Invocation) :
  (m.body c count).Computes
  := by
  simp only [ofString, List.mem_cons, List.not_mem_nil, or_false] at h
  obtain rfl | rfl | rfl | rfl | rfl | rfl := h
  · apply Body.Computes.done _ rfl
  · apply Body.Computes.done _ rfl
  · apply Body.Computes.done _ rfl
  · apply c.computes_argument 0
    intro pattern
    apply Body.Computes.done _ rfl
  · apply c.computes_argument 0
    intro v
    match v with
    | .integer n =>
        simp only
        split
        · apply Body.Computes.done _ rfl
        · apply Body.Computes.withinLimit
          apply Body.Computes.done _ rfl
    | .string _ | .boolean _ | .double _ => apply Body.Computes.done _ rfl
  · apply c.computes_argument 0
    intro pattern
    apply c.computes_argument 1
    intro new
    apply Body.Computes.withinLimit
    apply Body.Computes.done _ rfl

theorem computes_rounding (name : String) (round : Float → Int) (c : Invocation) :
  ((rounding name round).body c count).Computes
  := by
  simp only [rounding]
  split
  · apply Body.Computes.done _ (Result.signal?_ofValue _)
  · apply Body.Computes.done _ rfl

theorem computes_abs (c : Invocation) :
  (abs.body c count).Computes
  := by
  simp only [abs]
  split
  · apply Body.Computes.done _ (Result.signal?_ofValue _)
  · apply Body.Computes.done _ rfl

/-- The bodies of all members compute. -/
theorem computes_of_mem_ofKind {kind : Kind} {m : Member} (h : m ∈ ofKind kind)
    (c : Invocation) :
  (m.body c count).Computes
  := by
  cases kind with
  | string => apply computes_of_mem_ofString h
  | boolean => cases h
  | double =>
      simp only [ofKind, ofDouble, List.mem_cons, List.not_mem_nil, or_false] at h
      obtain rfl | rfl | rfl := h
      · apply computes_rounding
      · apply computes_rounding
      · apply computes_rounding
  | integer =>
      obtain rfl := List.mem_singleton.mp h
      apply computes_abs

end Member

/-! ### Nodes -/

/-- The signals that a node gives on its own account. -/
def Node.OwnSignal : Node → Signal → Prop
  | .returning _ scope, signal => signal = .returning scope
  | .terminating _ scope, signal => signal = .terminating scope
  | _, _ => False

/-- All nodes have plain bodies. -/
theorem Node.plain_body (n : Node) :
  n.body.Plain n.OwnSignal
  := by
  cases n with
  | literal v => apply Body.plain_done rfl
  | reference name =>
      apply Body.Plain.read
      intro v
      cases v <;> apply Body.plain_done rfl
  | assignment name expression =>
      apply Body.Plain.isGlobal
      intro isGlobal
      split
      · apply Body.plain_done rfl
      · apply Body.Plain.value
        intro v
        apply Body.Plain.bind
        apply Body.plain_done rfl
  | dot receiver member args scope =>
      apply Body.Plain.value
      intro v
      apply Body.Plain.call
      intro operand hoperand
      obtain ⟨i, -, rfl⟩ := List.mem_map.mp hoperand
      exact ⟨i.succ, rfl⟩
  | call name args scope => exact Body.Plain.call 0 _ fun _ => Operand.exists_of_mem_all
  | binary op left right =>
      apply Body.Plain.value
      intro a
      cases op.decidedBy? with
      | none =>
          apply Body.Plain.value
          intro b
          apply Body.plain_done (Result.signal?_ofValue _)
      | some deciding =>
          cases a.truth with
          | error e => apply Body.plain_done rfl
          | ok decided =>
              simp only
              split
              · apply Body.plain_done rfl
              · apply Body.Plain.value
                intro b
                apply Body.plain_done (Result.signal?_ofValue _)
  | negation operand =>
      apply Body.Plain.value
      intro v
      apply Body.plain_done (Result.signal?_ofValue _)
  | root children => exact Body.plain_concatenation 0 (fun _ => Operand.exists_of_mem_all) ""
  | block children scope =>
      apply Body.Plain.fork
      intro inner
      exact Body.plain_concatenation inner (fun _ => Operand.exists_of_mem_all) ""
  | returning expression scope =>
      apply Body.Plain.value
      intro v
      apply Body.Plain.done
      intro signal h
      apply (Option.some.inj h).symm
  | terminating expression scope =>
      apply Body.Plain.value
      intro v
      apply Body.Plain.done
      intro signal h
      apply (Option.some.inj h).symm

end Plain

/-! ### Calls of functions -/

/-- If the activity is a call of a function, then the function is eager or the body that runs
satisfies `P`. -/
def Activity.CallsOnly (P : {count : Nat} → Body count → Prop) : Activity → Prop
  | call (.function _ args scope) body =>
      (∃ arity compute, body = (Function.eager arity compute).body args.length scope) ∨ P body
  | _ => True

/-- All functions that are called in the events are eager or have bodies that satisfy `P`. -/
def CallsOnly (P : {count : Nat} → Body count → Prop) (events : List Event) : Prop :=
  ∀ a, .starts a ∈ events → a.CallsOnly P

section CallsOnly

variable {P : {count : Nat} → Body count → Prop}

theorem CallsOnly.of_append {events others : List Event} (h : CallsOnly P (events ++ others)) :
  CallsOnly P events ∧ CallsOnly P others
  := by
  constructor
  · intro a ha
    apply h a (List.mem_append_left others ha)
  · intro a ha
    apply h a (List.mem_append_right events ha)

theorem CallsOnly.of_cons {e : Event} {rest : List Event} (h : CallsOnly P (e :: rest)) :
  CallsOnly P rest
  := fun a ha => h a (List.mem_cons_of_mem e ha)

theorem CallsOnly.mono {Q : {count : Nat} → Body count → Prop} {events : List Event}
    (h : CallsOnly P events) (hmono : ∀ {count : Nat} {body : Body count}, P body → Q body) :
  CallsOnly Q events
  := by
  intro a ha
  match a, h a ha with
  | .node n, _ => trivial
  | .call (.member receiver name args scope) body, _ => trivial
  | .call (.function name args scope) body, hcall => exact hcall.imp_right hmono

/-- If bodies that compute satisfy `P`, then so does every body that runs in a call. -/
theorem Activity.CallsOnly.body {s : Store} {callee : Call Node} {body : Body callee.args.length}
    (hcomputes : ∀ {count : Nat} {body : Body count}, body.Computes → P body)
    (h : (Activity.call callee body).CallsOnly P) (hbody : s.bodyOf callee = .ok body) :
  P body
  := by
  cases callee with
  | function name args scope =>
      obtain ⟨arity, compute, rfl⟩ | hP := h
      · apply hcomputes (Function.computes_eager arity compute scope)
      · apply hP
  | member receiver name args scope =>
      obtain ⟨m, hfind, -, rfl⟩ := Store.exists_of_bodyOf_member hbody
      apply hcomputes (Member.computes_of_mem_ofKind (List.mem_of_find?_eq_some hfind) _)

end CallsOnly

/-! ### Names of functions -/

/-- The functions that a tree names have bodies that satisfy `P`. -/
def Store.NamesOnly (P : {count : Nat} → Body count → Prop) (s : Store) (n : Node) : Prop :=
  ∀ name args scope enclosing, Node.Occurs (.call name args scope) enclosing n →
    ∀ f, s.functions.get? name = some f → ∀ count, P (f.body count scope)

theorem Store.namesOnly_of_children {P : {count : Nat} → Body count → Prop} {s : Store} {n : Node}
    (hown : ∀ name args scope, n = .call name args scope →
      ∀ f, s.functions.get? name = some f → ∀ count, P (f.body count scope))
    (hchildren : ∀ child ∈ n.children, s.NamesOnly P child) :
  s.NamesOnly P n
  := by
  intro name args scope enclosing hoccurs
  cases hoccurs with
  | here => apply hown name args scope rfl
  | inside hchild hinside => apply hchildren _ hchild name args scope _ hinside

/-- A call of a function without subtrees in its arguments names that function only. -/
theorem Store.namesOnly_call {P : {count : Nat} → Body count → Prop} {s : Store} {name : String}
    {f : Function} (hf : s.functions.get? name = some f)
    (h : ∀ count scope, P (f.body count scope)) (values : List Value) (scope : Option Scope) :
  s.NamesOnly P (.call name (values.map .literal) scope)
  := by
  apply namesOnly_of_children
  · intro other args scope' hcall g hg count
    cases hcall
    obtain rfl := Option.some.inj (hf.symm.trans hg)
    apply h
  · intro child hchild
    obtain ⟨v, -, rfl⟩ := List.mem_map.mp hchild
    apply namesOnly_of_children nofun nofun

end Stencil
