import Stencil.Proofs.Course.Inside
import Stencil.Proofs.Deciding

/-!
# Short cuts of operators

`AND` and `OR` stop after a left operand that decides the result.  That is sound: whenever an
expression gives a value though all operands of its operators are evaluated, its evaluation gives
that value (`Context.evaluate_of_evaluateStrictly`).  And in every run nothing else happens inside
an operator whose left operand decides, neither before nor after that operand has been evaluated
(`LeftFirst`).

Expressions are made of literals, constant variables, operators, negations and members.  Their
evaluation leaves the environment as it is, so that both evaluations go on from the same
environment after each operand.
-/

namespace Stencil

/-! ### Sound tables -/

/-- Where the table stops an operator, the result does not depend on the right operand. -/
def Deciding.Sound (table : Deciding) : Prop :=
  ∀ op deciding, table op = some deciding → ∀ a b v, op.evaluate a b = .ok v →
    ∃ t, a.truth = .ok t ∧ (t = deciding → v = .boolean t)

theorem Value.gate_eq_ok {g : Gate} {a b v : Value} (h : a.gate g b = .ok v) :
  ∃ s t, a.truth = .ok s ∧ b.truth = .ok t ∧ v = .boolean (g.apply s t)
  := by
  rw [gate] at h
  cases ha : a.truth with
  | error e =>
      rw [ha] at h
      cases h
  | ok s =>
      cases hb : b.truth with
      | error e =>
          rw [ha, hb] at h
          cases h
      | ok t =>
          rw [ha, hb] at h
          exact ⟨s, t, rfl, rfl, (Except.ok.inj h).symm⟩

theorem Operator.decidedBy?_sound :
  Deciding.Sound decidedBy?
  := by
  intro op deciding hop a b v hv
  obtain ⟨g, rfl, hg⟩ : ∃ g, op = .gate g ∧ ∀ t, g.apply deciding t = deciding := by
    rcases decidedBy?_eq_some_iff.mp hop with ⟨rfl, rfl⟩ | ⟨rfl, rfl⟩
    · exact ⟨.and, rfl, fun t => rfl⟩
    · exact ⟨.or, rfl, fun t => rfl⟩
  obtain ⟨s, t, hs, -, rfl⟩ := Value.gate_eq_ok hv
  refine ⟨s, hs, ?_⟩
  rintro rfl
  rw [hg]

/-! ### Expressions -/

/-- The node is an expression: a literal, a variable that is constant in the environment, an
operator between expressions, a negation, or a member of an expression with expressions for
arguments. -/
inductive Node.Expression (e : Environment) : Node → Prop where
  | literal (v : Value) : Expression e (.literal v)
  | reference {name : String} {v : Value} (h : e.resolve? name = some (.constant v)) :
      Expression e (.reference name)
  | dot {receiver : Node} (member : String) {args : List Node} (scope : Option Scope)
      (hreceiver : Expression e receiver) (hargs : ∀ arg ∈ args, Expression e arg) :
      Expression e (.dot receiver member args scope)
  | binary (op : Operator) {left right : Node} (hleft : Expression e left)
      (hright : Expression e right) : Expression e (.binary op left right)
  | negation {operand : Node} (h : Expression e operand) : Expression e (.negation operand)

/-- Reading a constant variable gives its value and counts nothing. -/
theorem Environment.read_of_constant {e : Environment} {name : String} {v : Value}
    (h : e.resolve? name = some (.constant v)) :
  e.read name = (some v, e)
  := by
  rw [Environment.read, h]
  rfl

theorem Result.ofValue_eq_proceed {r : Attempt Value} {v : Value} :
  Result.ofValue r = proceed v ↔ r = .ok v
  := by cases r <;> simp [ofValue, proceed, Except.map]

theorem proceeding_proceed (v : Value) (env : Environment)
    (next : Value → Environment → Result × Environment) :
  proceeding (proceed v, env) next = next v env
  := rfl

section Refinement

variable {table : Deciding} {limits : Limits} {e : Environment}

/-- A call gives a value exactly if it finds its body and room for one more open call, and the body
gives the value. -/
theorem answerDeciding_eq_proceed_iff {budget depth : Nat} {callee : Call Node} {v : Value}
    {e' : Environment} :
  answerDeciding table limits budget depth callee e = (proceed v, e')
    ↔ ∃ rest body a, budget = rest + 1 ∧ e.store.bodyOf callee = .ok body
      ∧ body.runDeciding table (answerDeciding table limits rest (depth + 1)) limits (depth + 1)
          callee.args.get ⟨e.store, [e.locals]⟩ = (proceed v, a)
      ∧ e' = a.environment 0
  := by
  constructor
  · intro h
    cases budget with
    | zero =>
        rw [answerDeciding] at h
        cases hbody : e.store.bodyOf callee with
        | error f =>
            rw [hbody] at h
            cases h
        | ok body =>
            rw [hbody] at h
            cases h
    | succ rest =>
        rw [answerDeciding] at h
        cases hbody : e.store.bodyOf callee with
        | error f =>
            rw [hbody] at h
            cases h
        | ok body =>
            rw [hbody] at h
            obtain ⟨hresult, henv⟩ := Prod.mk.inj h
            exact ⟨rest, body, _, rfl, rfl, Prod.ext hresult rfl, henv.symm⟩
  · rintro ⟨rest, body, a, rfl, hbody, hrun, rfl⟩
    rw [answerDeciding, hbody]
    simp only
    rw [hrun]

/-- A body that goes on with the value of an argument gives a value if the argument does and what
follows gives it. -/
theorem Body.runDeciding_value {answer : Answer} {depth count : Nat} {args : Fin count → Node}
    {i : Fin count} {next : Value → Body count} {v : Value} {a a' : Activation} :
  (value 0 (.arg i) next).runDeciding table answer limits depth args a = (proceed v, a')
    ↔ ∃ w e', (args i).evaluateDeciding table answer (a.environment 0) = (proceed w, e')
      ∧ (next w).runDeciding table answer limits depth args (a.update 0 e') = (proceed v, a')
  := by
  rw [value, runDeciding_evaluate, resume_value, Operand.node]
  rcases (args i).evaluateDeciding table answer (a.environment 0) with
    ⟨f | ⟨w⟩ | ⟨w, s⟩ | ⟨w, s⟩, e'⟩
  case ok.proceed =>
    constructor
    · intro h
      exact ⟨w, e', rfl, h⟩
    · rintro ⟨w', e'', hsame, h⟩
      obtain ⟨hw, rfl⟩ := Prod.mk.inj hsame
      obtain rfl := Outcome.proceed.inj (Except.ok.inj hw)
      exact h
  all_goals
    simp only [runDeciding]
    constructor
    · intro h
      cases h
    · rintro ⟨w', e'', hsame, -⟩
      cases hsame

theorem Body.runDeciding_withinLimit {answer : Answer} {depth count : Nat}
    {args : Fin count → Node} (operation source : String) (length : Nat)
    (next : Unit → Body count) (a : Activation) :
  (Member.withinLimit operation source length next).runDeciding table answer limits depth args a
    = (limits.refusal? operation source length).elim
        ((next ()).runDeciding table answer limits depth args a) fun e => (.error e, a)
  := Member.apply_withinLimit (fun body => body.runDeciding table answer limits depth args a)
    (fun _ => rfl) _ _ _ _

/-- A body that computes gives, with short cuts in its arguments, the value that it gives without.
It leaves its contexts as they are. -/
theorem Body.Computes.run_of_strict {strict answer : Answer} {depth count : Nat}
    {args : Fin count → Node}
    (hargs : ∀ i v e', (args i).evaluateDeciding .never strict e = (proceed v, e') →
      e' = e ∧ (args i).evaluateDeciding table answer e = (proceed v, e))
    {body : Body count} (h : body.Computes) {v : Value} {a : Activation}
    (hrun : body.runDeciding .never strict limits depth args ⟨e.store, [e.locals]⟩
      = (proceed v, a)) :
  a = ⟨e.store, [e.locals]⟩
    ∧ body.runDeciding table answer limits depth args ⟨e.store, [e.locals]⟩ = (proceed v, a)
  := by
  induction h with
  | done result h =>
      rw [runDeciding] at hrun
      obtain ⟨rfl, rfl⟩ := Prod.mk.inj hrun
      exact ⟨rfl, rfl⟩
  | @value i next h ih =>
      obtain ⟨w, e', hw, hnext⟩ := runDeciding_value.mp hrun
      obtain ⟨rfl, hargument⟩ := hargs i w e' hw
      obtain ⟨rfl, hsame⟩ := ih w hnext
      exact ⟨rfl, runDeciding_value.mpr ⟨w, _, hargument, hsame⟩⟩
  | withinLimit operation source length h ih =>
      rw [runDeciding_withinLimit] at hrun ⊢
      cases hrefused : limits.refusal? operation source length with
      | some f =>
          rw [hrefused] at hrun
          cases hrun
      | none =>
          rw [hrefused] at hrun
          apply ih hrun

/-- Where all operands of operators are evaluated and give a value, the evaluation with a sound
table gives that value. -/
theorem Node.Expression.evaluate_of_strict (htable : table.Sound) {n : Node} (h : n.Expression e)
    {budget depth : Nat} {v : Value} {e' : Environment}
    (hstrict : n.evaluateDeciding .never (answerDeciding .never limits budget depth) e
      = (proceed v, e')) :
  e' = e
    ∧ n.evaluateDeciding table (answerDeciding table limits budget depth) e = (proceed v, e)
  := by
  induction h generalizing budget depth v e' with
  | literal w =>
      rw [evaluateDeciding] at hstrict
      obtain ⟨hw, rfl⟩ := Prod.mk.inj hstrict
      rw [evaluateDeciding, hw]
      exact ⟨rfl, rfl⟩
  | @reference name w h =>
      rw [evaluateDeciding, Environment.read_of_constant h] at hstrict
      obtain ⟨hw, rfl⟩ := Prod.mk.inj hstrict
      rw [evaluateDeciding, Environment.read_of_constant h]
      exact ⟨rfl, hstrict⟩
  | @dot receiver member args scope hreceiver hargs ihreceiver ihargs =>
      rw [evaluateDeciding] at hstrict
      obtain ⟨w, env, hw, hcall⟩ := exists_of_proceeding_eq hstrict
      obtain ⟨rfl, hreceiver⟩ := ihreceiver hw
      obtain ⟨rest, body, a, rfl, hbody, hrun, rfl⟩ := answerDeciding_eq_proceed_iff.mp hcall
      obtain ⟨m, hfind, -, rfl⟩ := Store.exists_of_bodyOf_member hbody
      have hcomputes : (m.body ⟨member, w, scope⟩ args.length).Computes :=
        Member.computes_of_mem_ofKind (List.mem_of_find?_eq_some hfind) _
      obtain ⟨rfl, hsame⟩ :=
        hcomputes.run_of_strict (fun i _ _ h => ihargs _ (List.getElem_mem _) h) hrun
      refine ⟨rfl, ?_⟩
      rw [evaluateDeciding, hreceiver, proceeding_proceed]
      exact answerDeciding_eq_proceed_iff.mpr ⟨rest, _, _, rfl, hbody, hsame, rfl⟩
  | @binary op left right hleft hright ihleft ihright =>
      rw [evaluateDeciding] at hstrict
      obtain ⟨a, env, ha, hrest⟩ := exists_of_proceeding_eq hstrict
      obtain ⟨rfl, hleft⟩ := ihleft ha
      obtain ⟨b, env', hb, hgives⟩ := exists_of_proceeding_eq hrest
      obtain ⟨rfl, hright⟩ := ihright hb
      obtain ⟨hv, rfl⟩ := Prod.mk.inj hgives
      refine ⟨rfl, ?_⟩
      rw [evaluateDeciding, hleft, proceeding_proceed]
      cases hop : table op with
      | none =>
          simp only
          rw [hright, proceeding_proceed, hv]
      | some deciding =>
          obtain ⟨t, ht, hdecides⟩ := htable op deciding hop a b v (Result.ofValue_eq_proceed.mp hv)
          simp only [ht]
          split
          · rename_i hdecided
            rw [hdecides hdecided]
          · rw [hright, proceeding_proceed, hv]
  | @negation operand h ih =>
      rw [evaluateDeciding] at hstrict
      obtain ⟨w, env, hw, hgives⟩ := exists_of_proceeding_eq hstrict
      obtain ⟨rfl, hoperand⟩ := ih hw
      obtain ⟨hv, rfl⟩ := Prod.mk.inj hgives
      refine ⟨rfl, ?_⟩
      rw [evaluateDeciding, hoperand, proceeding_proceed, hv]

end Refinement

/-! ### What is not evaluated -/

/-- Wherever the evaluation of an operator starts, that of its left operand starts next; and if
this ends with a truth value that stops the operator, then the operator ends next, with that
truth value. -/
def LeftFirst (events : List Event) : Prop :=
  ∀ before rest op left right, events = before ++ .starts (.node (.binary op left right)) :: rest →
    ∃ inside r after, Nested inside
      ∧ rest = .starts (.node left) :: (inside ++ .ends (.node left) r :: after)
      ∧ ∀ b, op.decidedBy? = some b → r = proceed (.boolean b) →
        ∃ later, after = .ends (.node (.binary op left right)) (proceed (.boolean b)) :: later

namespace LeftFirst

variable {events others : List Event}

theorem nil :
  LeftFirst []
  := by
  intro before rest op left right hsplit
  simp at hsplit

/-- An event that does not start an operator may come first. -/
theorem cons {e : Event} (he : ∀ op left right, e ≠ .starts (.node (.binary op left right)))
    (h : LeftFirst events) :
  LeftFirst (e :: events)
  := by
  intro before rest op left right hsplit
  cases before with
  | nil => exact absurd (List.cons.inj hsplit).1 (he op left right)
  | cons e' before => apply h before rest op left right (List.cons.inj hsplit).2

theorem append (h : LeftFirst events) (h' : LeftFirst others) :
  LeftFirst (events ++ others)
  := by
  intro before rest op left right hsplit
  rcases List.append_eq_append_iff.mp hsplit with ⟨part, -, hothers⟩ | ⟨part, rfl, hpart⟩
  · apply h' part rest op left right hothers
  · cases part with
    | nil => apply h' [] rest op left right hpart.symm
    | cons e part =>
        obtain ⟨rfl, rfl⟩ := List.cons.inj hpart
        obtain ⟨inside, r, after, hinside, rfl, hdecides⟩ := h before part op left right rfl
        refine ⟨inside, r, after ++ others, hinside, by simp, ?_⟩
        intro b hop hr
        obtain ⟨later, rfl⟩ := hdecides b hop hr
        exact ⟨later ++ others, rfl⟩

end LeftFirst

/-- After the start of an operator its left operand is evaluated, and then the operator ends if that
operand stops it. -/
theorem Node.events_course_binary (answer : AnswerCourse) (op : Operator) (left right : Node)
    (s : Counted) :
  ∃ after, ((binary op left right).course answer s).events
      = .starts (.node (.binary op left right)) :: ((left.course answer s).events ++ after)
    ∧ ∀ b, op.decidedBy? = some b → (left.course answer s).result = proceed (.boolean b) →
      after = [.ends (.node (.binary op left right)) (proceed (.boolean b))]
  := by
  rw [course, Course.events_during]
  rcases Result.proceeds_or_blocks (left.course answer s).result with ⟨v, hv⟩ | hblocks
  · rw [Course.proceeding_of_proceed hv, Course.events_after, List.append_assoc]
    refine ⟨_, rfl, ?_⟩
    intro b hop hr
    obtain rfl : v = .boolean b := Outcome.proceed.inj (Except.ok.inj (hv.symm.trans hr))
    simp only [hop, Value.truth, if_true]
    rfl
  · rw [Course.proceeding_of_blocks hblocks]
    refine ⟨_, rfl, ?_⟩
    intro b hop hr
    rw [hr] at hblocks
    cases hblocks

/-- In every run, the evaluation of an operator starts with its left operand. -/
theorem LeftFirst.passesOn :
  PassesOn fun events => Nested events ∧ LeftFirst events
  where
  nil := ⟨.nil, .nil⟩
  point e he := by
    constructor
    · apply Nested.point he .nil
    · apply LeftFirst.cons _ .nil
      rintro op left right rfl
      cases he
  append events others h h' := ⟨h.1.append h'.1, h.2.append h'.2⟩
  activity answer limits a s hanswer h := by
    have hnested : ∀ callee s, Nested (answer callee s).events := fun callee s =>
      (hanswer callee s).1
    constructor
    · apply Nested.passesOn.activity answer limits a s hnested h.1
    · rw [Activity.events_course]
      intro before rest op left right hsplit
      cases before with
      | nil =>
          obtain ⟨hstarts, rfl⟩ := List.cons.inj hsplit
          obtain rfl := Event.starts.inj hstarts
          obtain ⟨after, hevents, hdecides⟩ := Node.events_course_binary answer op left right s
          rw [Node.course_eq_activity limits, Activity.events_course] at hevents
          rw [Node.course_eq_activity limits left, Activity.events_course] at hevents
          refine ⟨_, (left.course answer s).result, after,
            Nested.passesOn.inside hnested limits (.node left) s, ?_, ?_⟩
          · rw [(List.cons.inj hevents).2, Node.course_eq_activity limits left]
            simp
          · intro b hop hr
            exact ⟨[], hdecides b hop hr⟩
      | cons e before =>
          have hends : LeftFirst [.ends a (a.course answer limits s).result] := .cons nofun .nil
          apply (h.2.append hends) before rest op left right (List.cons.inj hsplit).2

namespace Context

/-- If an expression gives a value though both operands of every operator in it are evaluated, then
its evaluation gives that value, and leaves the context as it is.  In the course of any node, the
evaluation of an operator starts with its left operand; and if that is false and the operator is
`AND`, or true and the operator is `OR`, then the operator ends right afterwards with that truth
value, so that nothing of its right operand is evaluated. -/
theorem evaluate_of_evaluateStrictly (c : Context) {n : Node} (h : n.Expression c.environment) :
  (∀ v, (c.evaluateStrictly n).1 = proceed v → c.evaluate n = (proceed v, c))
    ∧ ∀ before rest op left right,
      (c.course n).events = before ++ .starts (.node (.binary op left right)) :: rest →
        ∃ inside r after, Nested inside
          ∧ rest = .starts (.node left) :: (inside ++ .ends (.node left) r :: after)
          ∧ ∀ b, (op = .gate .and ∧ b = false) ∨ (op = .gate .or ∧ b = true) →
            r = proceed (.boolean b) →
              ∃ later, after
                = .ends (.node (.binary op left right)) (proceed (.boolean b)) :: later
  := by
  constructor
  · intro v hv
    obtain ⟨-, hevaluate⟩ := h.evaluate_of_strict Operator.decidedBy?_sound (Prod.ext hv rfl)
    rw [Node.evaluateDeciding_eq, answerDeciding_eq] at hevaluate
    rw [evaluate, answer, hevaluate]
    rfl
  · intro before rest op left right hsplit
    obtain ⟨inside, r, after, hinside, hrest, hdecides⟩ :=
      (LeftFirst.passesOn.course c n).2 before rest op left right hsplit
    refine ⟨inside, r, after, hinside, hrest, fun b hb => ?_⟩
    apply hdecides b (Operator.decidedBy?_eq_some_iff.mpr hb)

/-- A variable decides an `OR`, which gives the value that it gives without a short cut; the member
on the right is not evaluated. -/
theorem evaluate_of_evaluateStrictly_of_or :
  ∃ (c : Context) (left right n : Node),
    n = .binary (.gate .or) left right ∧ n.Expression c.environment
      ∧ (c.evaluateStrictly n).1 = proceed (.boolean true)
      ∧ c.evaluate n = (proceed (.boolean true), c)
      ∧ ∃ later, (c.course n).events
        = .starts (.node n) :: .starts (.node left) :: .reads "x"
          :: .ends (.node left) (proceed (.boolean true))
          :: .ends (.node n) (proceed (.boolean true)) :: later
  := by
  let c := (root .standard).bind "x" (.constant (.boolean true))
  let left : Node := .reference "x"
  let right : Node := .dot (.literal (.string "ab")) "contains" [.literal (.string "c")] none
  let n : Node := .binary (.gate .or) left right
  have hexpression : n.Expression c.environment := by
    apply Node.Expression.binary
    · apply Node.Expression.reference (v := .boolean true)
      rfl
    · apply Node.Expression.dot _ _ (.literal _)
      intro arg harg
      rw [List.mem_singleton.mp harg]
      apply Node.Expression.literal
  have hstrict : (c.evaluateStrictly n).1 = proceed (.boolean true) := by rfl
  obtain ⟨hevaluate, hleft⟩ := c.evaluate_of_evaluateStrictly hexpression
  refine ⟨c, left, right, n, rfl, hexpression, hstrict, hevaluate _ hstrict, ?_⟩
  obtain ⟨after, hevents⟩ : ∃ after, (c.course n).events = .starts (.node n)
      :: .starts (.node left) :: .reads "x" :: .ends (.node left) (proceed (.boolean true))
      :: after := ⟨_, rfl⟩
  obtain ⟨inside, r, after', hinside, hrest, hdecides⟩ := hleft [] _ _ left right hevents
  -- What is nested does not end an evaluation that started before it.
  obtain ⟨rfl, rfl⟩ : r = proceed (.boolean true) ∧ after' = after := by
    cases hinside with
    | nil => simp at hrest
    | @point e others he hothers =>
        cases hothers with
        | nil => simp_all
        | point he' _ =>
            obtain ⟨rfl, -⟩ := List.cons.inj (List.cons.inj (List.cons.inj hrest).2).2
            cases he'
        | activity => simp at hrest
    | activity => simp at hrest
  obtain ⟨later, rfl⟩ := hdecides true (.inr ⟨rfl, rfl⟩) rfl
  exact ⟨later, hevents⟩

end Context

end Stencil
