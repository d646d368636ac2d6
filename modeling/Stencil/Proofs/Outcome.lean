import Stencil.Context.Basic

/-!
# What bodies give

A body gives only values with some property, if every value that it may end with under the
given limits has the property, whatever it is told on the way (`Body.Gives`).  A call gives a
value only if what is called exists, accepts the number of arguments and finds room for one
more open call; then the value is what the body gives (`exists_run_of_answer`).
-/

namespace Stencil

/-- Under the given limits, every value that the body may end with satisfies `P`. -/
def Body.Gives (limits : Limits) (P : Value → Prop) {count : Nat} : Body count → Prop
  | .done result => ∀ v, result = proceed v → P v
  | .inspect _ next => ∀ n, (next n).Gives limits P
  | .evaluate _ _ next => ∀ r, (next r).Gives limits P
  | .call _ _ next => ∀ r, (next r).Gives limits P
  | .read _ _ next => ∀ v, (next v).Gives limits P
  | .isGlobal _ next => ∀ b, (next b).Gives limits P
  | .isLocal _ _ next => ∀ b, (next b).Gives limits P
  | .arity _ next => ∀ arity, (next arity).Gives limits P
  | .bind _ _ _ next => next.Gives limits P
  | .define _ _ next => next.Gives limits P
  | .register _ _ _ next => ∀ outcome, (next outcome).Gives limits P
  | .fork _ next => ∀ context, (next context).Gives limits P
  | .depth next => ∀ depth, (next depth).Gives limits P
  | .limits next => (next limits).Gives limits P
termination_by structural body => body

namespace Body

variable {count : Nat} {limits : Limits} {P : Value → Prop}

theorem gives_error (e : Failure) :
  (done (.error e) : Body count).Gives limits P
  := by
  intro v hv
  cases hv

theorem gives_value (context : Nat) (operand : Operand count) {next : Value → Body count}
    (h : ∀ v, (next v).Gives limits P) :
  (value context operand next).Gives limits P
  := by
  intro r
  match r with
  | .ok (.proceed v) => apply h
  | .ok (.returning v s) => nofun
  | .ok (.terminating v s) => nofun
  | .error e => nofun

theorem Gives.resume {next : Result → Body count} (h : ∀ r, (next r).Gives limits P)
    (result : Result) :
  (resume next result).Gives limits P
  := resume_elim h gives_error result

/-- A body that runs to a value gives it. -/
theorem Gives.run {body : Body count} (h : body.Gives limits P) (answer : Answer) (depth : Nat)
    (args : Fin count → Node) (a : Activation) {v : Value}
    (hv : (body.run answer limits depth args a).1 = proceed v) :
  P v
  := by
  induction body using Body.induction_on_resume generalizing a with
  | done result => apply h v hv
  | inspect i next ih => apply ih _ (h _) args _ hv
  | evaluate context operand next ih =>
      rw [run_evaluate] at hv
      apply ih _ (Gives.resume h _) args _ hv
  | call context callee next ih =>
      rw [run_call] at hv
      apply ih _ (Gives.resume h _) args _ hv
  | read context name next ih => apply ih _ (h _) args _ hv
  | isGlobal name next ih => apply ih _ (h _) args _ hv
  | isLocal context name next ih => apply ih _ (h _) args _ hv
  | arity name next ih => apply ih _ (h _) args _ hv
  | bind context name v next ih => apply ih h args _ hv
  | define name v next ih => apply ih h args _ hv
  | register name accepted body next ih => apply ih _ (h _) args _ hv
  | fork context next ih => apply ih _ (h _) args _ hv
  | depth next ih => apply ih _ (h _) args _ hv
  | limits next ih => apply ih _ h args _ hv

end Body

/-- What gives a value after going on with a value has got one. -/
theorem exists_of_proceeding_eq {r : Result × Environment}
    {next : Value → Environment → Result × Environment} {w : Value} {e : Environment}
    (h : proceeding r next = (proceed w, e)) :
  ∃ v env, r = (proceed v, env) ∧ next v env = (proceed w, e)
  := by
  match r with
  | (.ok (.proceed v), env) => exact ⟨v, env, rfl, h⟩
  | (.ok (.returning v s), env) => cases h
  | (.ok (.terminating v s), env) => cases h
  | (.error f, env) => cases h

theorem exists_of_proceeding_eq_proceed {r : Result × Environment}
    {next : Value → Environment → Result × Environment} {w : Value}
    (h : (proceeding r next).1 = proceed w) :
  ∃ v, r.1 = proceed v ∧ proceeding r next = next v r.2
  := by
  obtain ⟨v, env, rfl, -⟩ := exists_of_proceeding_eq (Prod.ext h rfl)
  exact ⟨v, rfl, rfl⟩

theorem Invocation.gives_argument {count : Nat} {limits : Limits} {P : Value → Prop}
    (c : Invocation) (i : Nat) {next : Value → Body count}
    (h : ∀ v, (next v).Gives limits P) :
  (c.argument i next).Gives limits P
  := by
  rw [argument]
  split
  · apply Body.gives_value _ _ h
  · nofun

/-- Calls that find the same under the same name, with equally many arguments, find the same body
or fail alike. -/
theorem Store.bodyOf_congr {s s' : Store} {callee callee' : Call Node}
    (hcallee : s'.callee callee' = s.callee callee) (hname : callee'.name = callee.name)
    (hlength : callee'.args.length = callee.args.length) :
  (∃ e, s.bodyOf callee = .error e ∧ s'.bodyOf callee' = .error e)
    ∨ ∃ arity body, s.callee callee = .ok (arity, body)
      ∧ s.bodyOf callee = .ok (body callee.args.length)
      ∧ s'.bodyOf callee' = .ok (body callee'.args.length)
  := by
  rw [bodyOf, bodyOf, hcallee, hname]
  cases s.callee callee with
  | error e => exact .inl ⟨e, rfl, rfl⟩
  | ok found =>
      obtain ⟨arity, body⟩ := found
      simp only [hlength]
      split
      · exact .inr ⟨arity, body, rfl, rfl, rfl⟩
      · exact .inl ⟨_, rfl, rfl⟩

/-- The body that is found for the call of a member is that of a member of the receiver's
kind, which accepts the number of arguments. -/
theorem Store.exists_of_bodyOf_member {s : Store} {receiver : Value} {name : String}
    {args : List Node} {scope : Option Scope} {body : Body args.length}
    (h : s.bodyOf (.member receiver name args scope) = .ok body) :
  ∃ m, Member.find? receiver.kind name = some m ∧ m.arity.accepts args.length = true
    ∧ body = m.body ⟨name, receiver, scope⟩ args.length
  := by
  rw [bodyOf, callee] at h
  cases hm : Member.find? receiver.kind name with
  | none =>
      rw [hm] at h
      cases h
  | some m =>
      rw [hm] at h
      simp only at h
      split at h
      · rename_i haccepts
        exact ⟨m, rfl, haccepts, (Except.ok.inj h).symm⟩
      · cases h

/-- A call that gives a value has found its body and room for one more open call, and the
body has given the value. -/
theorem exists_run_of_answer {limits : Limits} {budget depth : Nat} {callee : Call Node}
    {env : Environment} {v : Value}
    (h : (answer limits budget depth callee env).1 = proceed v) :
  ∃ rest body, budget = rest + 1 ∧ env.store.bodyOf callee = .ok body
    ∧ (body.run (answer limits rest (depth + 1)) limits (depth + 1) callee.args.get
        ⟨env.store, [env.locals]⟩).1 = proceed v
  := by
  cases budget with
  | zero =>
      rw [answer] at h
      cases hbody : env.store.bodyOf callee with
      | error e =>
          rw [hbody] at h
          cases h
      | ok body =>
          rw [hbody] at h
          cases h
  | succ rest =>
      rw [answer] at h
      cases hbody : env.store.bodyOf callee with
      | error e =>
          rw [hbody] at h
          cases h
      | ok body =>
          rw [hbody] at h
          exact ⟨rest, body, rfl, rfl, h⟩

end Stencil
