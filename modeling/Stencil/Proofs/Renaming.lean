import Stencil.Function.Stock
import Stencil.Proofs.Course.Changes
import Stencil.Proofs.Course.Lockstep

/-!
# Other numbers for scopes

Which numbers the scopes of a tree have does not matter, as long as different scopes have different
numbers: with other numbers in the blocks, the returns, the terminations and the calls of a tree,
it gives the same error, or the same outcome aimed at the scope with the other number, and leaves
the same context (`Context.evaluate_renameScopes`).

Only blocks look at scopes, and they only ask whether two of them are equal
(`Outcome.leaveBlock_rename`).  Members and eager functions are told the scope of their call and do
not use it (`Member.body_eq_of_mem_ofKind`); other functions may, so that the calls in the tree must
not go to them.
-/

namespace Stencil

/-! ### Outcomes, trees and calls -/

/-- The outcome aimed at another scope. -/
def Outcome.rename (r : Scope → Scope) : Outcome → Outcome
  | .proceed v => .proceed v
  | .returning v scope => .returning v (scope.map r)
  | .terminating v scope => .terminating v (scope.map r)

/-- A block with another scope takes the same returns aimed at other scopes, if different scopes
stay different. -/
theorem Outcome.leaveBlock_rename {r : Scope → Scope} (hr : r.Injective) (scope : Option Scope)
    (o : Outcome) :
  (o.rename r).leaveBlock (scope.map r) = (o.leaveBlock scope).rename r
  := by
  cases o with
  | proceed v => rfl
  | terminating v s => rfl
  | returning v s =>
      have haimed : s.map r = none ∨ s.map r = scope.map r ↔ s = none ∨ s = scope := by
        rw [Option.map_eq_none_iff, (Option.map_injective hr).eq_iff]
      rw [rename, leaveBlock, leaveBlock]
      simp only [haimed]
      split
      · rfl
      · rfl

namespace Node

mutual

/-- The tree with other scopes. -/
def renameScopes (r : Scope → Scope) : Node → Node
  | literal v => literal v
  | reference name => reference name
  | assignment name expression => assignment name (expression.renameScopes r)
  | dot receiver member args scope =>
      dot (receiver.renameScopes r) member (renameScopesOfAll r args) (scope.map r)
  | call name args scope => call name (renameScopesOfAll r args) (scope.map r)
  | binary op left right => binary op (left.renameScopes r) (right.renameScopes r)
  | negation operand => negation (operand.renameScopes r)
  | root children => root (renameScopesOfAll r children)
  | block children scope => block (renameScopesOfAll r children) (scope.map r)
  | returning expression scope => returning (expression.renameScopes r) (scope.map r)
  | terminating expression scope => terminating (expression.renameScopes r) (scope.map r)

/-- Trees with other scopes. -/
def renameScopesOfAll (r : Scope → Scope) : List Node → List Node
  | [] => []
  | n :: rest => n.renameScopes r :: renameScopesOfAll r rest

end

theorem renameScopesOfAll_eq_map (r : Scope → Scope) (nodes : List Node) :
  renameScopesOfAll r nodes = nodes.map (renameScopes r)
  := by
  induction nodes with
  | nil => rfl
  | cons n rest ih => rw [renameScopesOfAll, ih, List.map_cons]

end Node

/-- The call with other scopes, its own and those in its arguments. -/
def Call.renameScopes (r : Scope → Scope) : Call Node → Call Node
  | .function name args scope => .function name (args.map (Node.renameScopes r)) (scope.map r)
  | .member receiver name args scope =>
      .member receiver name (args.map (Node.renameScopes r)) (scope.map r)

@[simp]
theorem Call.args_renameScopes (r : Scope → Scope) (callee : Call Node) :
  (callee.renameScopes r).args = callee.args.map (Node.renameScopes r)
  := by cases callee <;> rfl

@[simp]
theorem Call.name_renameScopes (r : Scope → Scope) (callee : Call Node) :
  (callee.renameScopes r).name = callee.name
  := by cases callee <;> rfl

/-! ### Calls of eager functions -/

/-- The function is eager. -/
def Function.IsEager (f : Function) : Prop := ∃ arity compute, f = eager arity compute

/-- All calls in the tree that name one of the functions name an eager one. -/
def Node.CallsEager (functions : Table Function) (n : Node) : Prop :=
  ∀ name args scope enclosing, Occurs (.call name args scope) enclosing n →
    ∀ f, functions.get? name = some f → f.IsEager

theorem Node.CallsEager.child {functions : Table Function} {n child : Node}
    (h : n.CallsEager functions) (hchild : child ∈ n.children) :
  child.CallsEager functions
  := fun name args scope _ hoccurs => h name args scope _ (.inside hchild hoccurs)

/-- The call and all calls in its arguments go to members and eager functions. -/
structure Call.CallsEager (functions : Table Function) (callee : Call Node) : Prop where
  args : ∀ n ∈ callee.args, n.CallsEager functions
  callee : ∀ name args scope, callee = .function name args scope →
    ∀ f, functions.get? name = some f → f.IsEager

/-- The body of a member does not depend on the scope of the call. -/
theorem Member.body_eq_of_mem_ofKind {kind : Kind} {m : Member} (h : m ∈ ofKind kind)
    (name : String) (receiver : Value) (scope scope' : Option Scope) :
  m.body ⟨name, receiver, scope⟩ = m.body ⟨name, receiver, scope'⟩
  := by
  cases kind with
  | string =>
      simp only [ofKind, ofString, List.mem_cons, List.not_mem_nil, or_false] at h
      obtain rfl | rfl | rfl | rfl | rfl | rfl := h <;> rfl
  | boolean => cases h
  | double =>
      simp only [ofKind, ofDouble, List.mem_cons, List.not_mem_nil, or_false] at h
      obtain rfl | rfl | rfl := h <;> rfl
  | integer =>
      obtain rfl := List.mem_singleton.mp h
      rfl

/-- With other scopes, such a call finds the same, and it is a body that computes. -/
theorem Call.CallsEager.callee_renameScopes {s : Store} {callee : Call Node}
    (h : callee.CallsEager s.functions) (r : Scope → Scope) :
  s.callee (callee.renameScopes r) = s.callee callee
    ∧ ∀ arity body, s.callee callee = .ok (arity, body) → ∀ count, (body count).Computes
  := by
  cases callee with
  | function name args scope =>
      rw [renameScopes, Store.callee, Store.callee]
      cases hf : s.functions.get? name with
      | none =>
          refine ⟨rfl, ?_⟩
          intro _ _ hcallee
          cases hcallee
      | some f =>
          obtain ⟨arity, compute, rfl⟩ := h.callee name args scope rfl f hf
          refine ⟨rfl, ?_⟩
          intro _ _ hcallee count
          obtain ⟨rfl, rfl⟩ := Prod.mk.inj (Except.ok.inj hcallee)
          apply Function.computes_eager arity compute scope
  | member receiver name args scope =>
      rw [renameScopes, Store.callee, Store.callee]
      cases hm : Member.find? receiver.kind name with
      | none =>
          refine ⟨rfl, ?_⟩
          intro _ _ hcallee
          cases hcallee
      | some m =>
          have hmem : m ∈ Member.ofKind receiver.kind := List.mem_of_find?_eq_some hm
          simp only [m.body_eq_of_mem_ofKind hmem name receiver (scope.map r) scope, true_and]
          intro _ _ hcallee count
          obtain ⟨rfl, rfl⟩ := Prod.mk.inj (Except.ok.inj hcallee)
          apply Member.computes_of_mem_ofKind hmem

/-! ### Runs -/

/-- The second result is the first one aimed at another scope, and both leave the same state, in
which the functions are still the same. -/
structure Renamed {σ : Type} (store : σ → Store) (r : Scope → Scope) (functions : Table Function)
    (x x' : Result × σ) : Prop where
  eq : x' = (x.1.map (Outcome.rename r), x.2)
  functions : (store x.2).functions = functions

section Runs

variable {r : Scope → Scope} {functions : Table Function}

/-- With other scopes, calls to members and eager functions are answered alike. -/
def Answer.Renames (r : Scope → Scope) (functions : Table Function) (answer : Answer) : Prop :=
  ∀ callee e, e.store.functions = functions → callee.CallsEager functions →
    Renamed Environment.store r functions (answer callee e) (answer (callee.renameScopes r) e)

/-- With other scopes, the tree evaluates alike. -/
def Node.Renames (r : Scope → Scope) (functions : Table Function) (answer : Answer) (n : Node) :
    Prop :=
  ∀ e, e.store.functions = functions →
    Renamed Environment.store r functions (n.evaluate answer e)
      ((n.renameScopes r).evaluate answer e)

namespace Renamed

/-- A result without a scope. -/
theorem of_signal {σ : Type} {store : σ → Store} {result : Result} {s : σ}
    (h : Result.signal? result = none) (hs : (store s).functions = functions) :
  Renamed store r functions (result, s) (result, s)
  := by
  refine ⟨?_, hs⟩
  match result with
  | .ok (.proceed v) => rfl
  | .error e => rfl

theorem proceeding {x x' : Result × Environment} (h : Renamed Environment.store r functions x x')
    {next next' : Value → Environment → Result × Environment}
    (hnext : ∀ v e, e.store.functions = functions →
      Renamed Environment.store r functions (next v e) (next' v e)) :
  Renamed Environment.store r functions (proceeding x next) (proceeding x' next')
  := by
  obtain ⟨rfl, hfunctions⟩ := h
  match x with
  | (.ok (.proceed v), e) => apply hnext v e hfunctions
  | (.ok (.returning v s), e) => exact ⟨rfl, hfunctions⟩
  | (.ok (.terminating v s), e) => exact ⟨rfl, hfunctions⟩
  | (.error f, e) => exact ⟨rfl, hfunctions⟩

end Renamed

/-- Nodes that evaluate alike have display texts that are put together alike. -/
theorem Node.concatenate_renames {answer : Answer} (nodes : List Node)
    (h : ∀ n ∈ nodes, n.Renames r functions answer) (text : String) {e : Environment}
    (he : e.store.functions = functions) :
  Renamed Environment.store r functions (Node.concatenate answer nodes text e)
    (Node.concatenate answer (nodes.map (renameScopes r)) text e)
  := by
  induction nodes generalizing text e with
  | nil => apply Renamed.of_signal rfl he
  | cons n rest ih =>
      rw [List.forall_mem_cons] at h
      rw [List.map_cons, concatenate, concatenate]
      apply (h.1 e he).proceeding
      intro v e he
      apply ih h.2 _ he

/-- Trees evaluate alike, if calls do. -/
theorem Node.renames (hr : r.Injective) {answer : Answer} (hanswer : answer.Renames r functions)
    {n : Node} (hn : n.CallsEager functions) :
  n.Renames r functions answer
  := by
  induction n using Node.induction_on_children with
  | h n ih =>
      replace ih : ∀ child ∈ n.children, child.Renames r functions answer :=
        fun child hchild => ih child hchild (hn.child hchild)
      intro e he
      cases n with
      | literal v => apply Renamed.of_signal rfl he
      | reference name =>
          rw [renameScopes, evaluate]
          have hread := (e.functions_read name).trans he
          split
          · rename_i v e' hv
            rw [hv] at hread
            apply Renamed.of_signal rfl hread
          · rename_i e' hv
            rw [hv] at hread
            apply Renamed.of_signal rfl hread
      | assignment name expression =>
          rw [renameScopes, evaluate, evaluate]
          split
          · apply Renamed.of_signal rfl he
          · apply (ih _ List.mem_cons_self e he).proceeding
            intro v e he
            apply Renamed.of_signal rfl
            exact (e.store.functions_allocate (.constant v)).trans he
      | dot receiver member args scope =>
          rw [renameScopes, evaluate, evaluate, renameScopesOfAll_eq_map]
          apply (ih _ List.mem_cons_self e he).proceeding
          intro v e he
          apply hanswer (.member v member args scope) e he
          refine ⟨fun arg harg => hn.child (.tail _ harg), ?_⟩
          intro _ _ _ hcall
          cases hcall
      | call name args scope =>
          rw [renameScopes, evaluate, evaluate, renameScopesOfAll_eq_map]
          apply hanswer (.function name args scope) e he
          refine ⟨fun arg harg => hn.child harg, ?_⟩
          rintro _ _ _ hcall
          cases hcall
          apply hn name args scope [] .here
      | binary op left right =>
          rw [renameScopes, evaluate, evaluate]
          apply (ih _ List.mem_cons_self e he).proceeding
          intro a e he
          have hright : Renamed Environment.store r functions
              (Stencil.proceeding (right.evaluate answer e) fun b env =>
                (.ofValue (op.evaluate a b), env))
              (Stencil.proceeding ((right.renameScopes r).evaluate answer e) fun b env =>
                (.ofValue (op.evaluate a b), env)) := by
            apply (ih _ (.tail _ List.mem_cons_self) e he).proceeding
            intro b e he
            apply Renamed.of_signal (Result.signal?_ofValue _) he
          cases op.decidedBy? with
          | none => apply hright
          | some deciding =>
              cases a.truth with
              | error f => apply Renamed.of_signal rfl he
              | ok decided =>
                  simp only
                  split
                  · apply Renamed.of_signal rfl he
                  · apply hright
      | negation operand =>
          rw [renameScopes, evaluate, evaluate]
          apply (ih _ List.mem_cons_self e he).proceeding
          intro v e he
          apply Renamed.of_signal (Result.signal?_ofValue _) he
      | root children =>
          rw [renameScopes, evaluate, evaluate, renameScopesOfAll_eq_map]
          apply concatenate_renames children ih "" he
      | block children scope =>
          rw [renameScopes, evaluate, evaluate, renameScopesOfAll_eq_map]
          have hinside := concatenate_renames children ih "" he
          generalize concatenate answer children "" e = inside at hinside
          obtain ⟨result, inner⟩ := inside
          rw [hinside.eq]
          refine ⟨Prod.ext ?_ rfl, hinside.functions⟩
          cases result with
          | error f => rfl
          | ok o => exact congrArg Except.ok (o.leaveBlock_rename hr scope)
      | returning expression scope =>
          rw [renameScopes, evaluate, evaluate]
          apply (ih _ List.mem_cons_self e he).proceeding
          intro v e he
          exact ⟨rfl, he⟩
      | terminating expression scope =>
          rw [renameScopes, evaluate, evaluate]
          apply (ih _ List.mem_cons_self e he).proceeding
          intro v e he
          exact ⟨rfl, he⟩

/-- A body that computes runs alike on arguments with other scopes. -/
theorem Body.Computes.renamed {answer : Answer} {limits : Limits} {depth count : Nat}
    {args : Fin count → Node} (hargs : ∀ i, (args i).Renames r functions answer)
    {body : Body count} (h : body.Computes) {a : Activation}
    (ha : a.store.functions = functions) :
  Renamed Activation.store r functions (body.run answer limits depth args a)
    (body.run answer limits depth (fun i => (args i).renameScopes r) a)
  := by
  induction h generalizing a with
  | done result h => apply Renamed.of_signal h ha
  | @value i next h ih =>
      have hargument := hargs i (a.environment 0) ha
      rw [Body.value, run_evaluate, run_evaluate, resume_value, resume_value, Operand.node,
        Operand.node, hargument.eq]
      have hfunctions := hargument.functions
      generalize (args i).evaluate answer (a.environment 0) = x at hfunctions
      obtain ⟨f | ⟨v⟩ | ⟨v, s⟩ | ⟨v, s⟩, e⟩ := x
      case ok.proceed => apply ih v hfunctions
      all_goals exact ⟨rfl, hfunctions⟩
  | withinLimit operation source length h ih =>
      rw [run_withinLimit, run_withinLimit]
      cases limits.refusal? operation source length with
      | some e => apply Renamed.of_signal rfl ha
      | none => apply ih ha

/-- A body for a list of arguments, and the same body for another list of the same length. -/
theorem Body.run_cast {answer : Answer} {limits : Limits} {depth : Nat}
    (body : (count : Nat) → Body count) {count count' : Nat} (h : count = count')
    (args : Fin count' → Node) :
  (body count').run answer limits depth args
    = (body count).run answer limits depth (fun i => args (i.cast h))
  := by
  subst h
  rfl

/-- Calls are answered alike with other scopes. -/
theorem answer_renames (hr : r.Injective) (limits : Limits) (budget depth : Nat) :
  (answer limits budget depth).Renames r functions
  := by
  induction budget generalizing depth with
  | zero =>
      rintro callee e rfl hcallee
      obtain ⟨hsame, -⟩ := hcallee.callee_renameScopes r
      rw [answer, answer]
      rcases Store.bodyOf_congr hsame (callee.name_renameScopes r) (by simp) with
        ⟨f, hf, hf'⟩ | ⟨arity, body, -, hbody, hbody'⟩
      · rw [hf, hf']
        exact Renamed.of_signal rfl rfl
      · rw [hbody, hbody']
        exact Renamed.of_signal rfl rfl
  | succ budget ih =>
      rintro callee e rfl hcallee
      obtain ⟨hsame, hcomputes⟩ := hcallee.callee_renameScopes r
      have hlength : callee.args.length = (callee.renameScopes r).args.length := by simp
      rw [answer, answer]
      rcases Store.bodyOf_congr hsame (callee.name_renameScopes r) hlength.symm with
        ⟨f, hf, hf'⟩ | ⟨arity, body, hfound, hbody, hbody'⟩
      · rw [hf, hf']
        exact Renamed.of_signal rfl rfl
      · have hargs : (fun i : Fin callee.args.length =>
              (callee.renameScopes r).args[i.cast hlength])
            = fun i => callee.args[i].renameScopes r := by
          funext i
          simp
        have hrun : Renamed Activation.store r e.store.functions
            ((body callee.args.length).run (answer limits budget (depth + 1)) limits (depth + 1)
              (fun i => callee.args[i]) ⟨e.store, [e.locals]⟩)
            ((body callee.args.length).run (answer limits budget (depth + 1)) limits (depth + 1)
              (fun i => callee.args[i].renameScopes r) ⟨e.store, [e.locals]⟩) :=
          (hcomputes arity body hfound _).renamed
            (fun i => Node.renames hr (ih (depth + 1)) (hcallee.args _ (List.getElem_mem i.isLt)))
            rfl
        rw [hbody, hbody']
        simp only [Body.run_cast body hlength, hargs, hrun.eq]
        exact ⟨rfl, hrun.functions⟩

end Runs

namespace Context

/-- A tree with other scopes gives the same error, or the same outcome aimed at the other scope, and
leaves the same context, if different scopes stay different.  The calls in the tree must go to
members and to eager functions. -/
theorem evaluate_renameScopes (c : Context) {n : Node} {r : Scope → Scope} (hr : r.Injective)
    (hcalls : n.CallsEager c.store.functions) :
  c.evaluate (n.renameScopes r) = ((c.evaluate n).1.map (Outcome.rename r), (c.evaluate n).2)
  := by
  have hanswer : c.answer.Renames r c.store.functions := answer_renames hr c.limits _ c.depth
  have hsame := (Node.renames hr hanswer hcalls c.environment rfl).eq
  rw [evaluate, evaluate, hsame]

/-- A return that passes a block with another scope, and carries what a function has computed. -/
theorem evaluate_renameScopes_of_returning :
  ∃ (c : Context) (n : Node) (r : Scope → Scope),
    r.Injective ∧ n.CallsEager c.store.functions
      ∧ n.renameScopes r
        = .block [.returning (.call "sum" [.literal (.integer 3)] (some ⟨8⟩)) (some ⟨2⟩)] (some ⟨3⟩)
      ∧ (c.evaluate n).1 = .ok (.returning (.integer 3) (some ⟨1⟩))
      ∧ c.evaluate (n.renameScopes r)
        = (.ok (.returning (.integer 3) (some ⟨2⟩)), (c.evaluate n).2)
  := by
  let c := ((root .standard).register "sum" (.sum .any)).2
  let n : Node :=
    .block [.returning (.call "sum" [.literal (.integer 3)] (some ⟨7⟩)) (some ⟨1⟩)] (some ⟨2⟩)
  let r : Scope → Scope := fun s => ⟨s.number + 1⟩
  have hr : r.Injective := by
    rintro ⟨a⟩ ⟨b⟩ h
    have hnumber : a + 1 = b + 1 := Scope.mk.inj h
    rw [(UInt32.add_left_inj 1).mp hnumber]
  have hcalls : n.CallsEager c.store.functions := by
    intro name args scope enclosing _ f hf
    have hfound : (Table.empty.insert "sum" (Function.sum .any)).get? name = some f := hf
    rw [Table.get?_insert] at hfound
    split at hfound
    · exact ⟨.any, _, (Option.some.inj hfound).symm⟩
    · cases hfound
  have hsame := c.evaluate_renameScopes hr hcalls
  have hresult : (c.evaluate n).1 = .ok (.returning (.integer 3) (some ⟨1⟩)) := rfl
  rw [hresult] at hsame
  exact ⟨c, n, r, hr, hcalls, rfl, hresult, hsame⟩

end Context

end Stencil
