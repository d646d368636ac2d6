import Stencil.Context.Basic

/-!
# Calls of members

The body of a member runs one call deeper, and the context of the call takes over what the body
leaves bound (`Context.call_member`).  The body goes on with the values of its arguments
(`Context.run_argument`).
-/

namespace Stencil

namespace Context

variable (c : Context)

/-- The context one call deeper, in which the arguments of a call are evaluated. -/
def inside (hroom : c.depth < c.limits.maxCallDepth.toNat) : Context where
  locals := c.locals
  limits := c.limits
  depth := c.depth + 1
  depth_le := hroom
  store := c.store

variable {c} {d : Context} {args : List Node}

/-- A call gives what its body gives one call deeper, and its context takes over what the body leaves
bound. -/
theorem call_of_run (hroom : c.depth < c.limits.maxCallDepth.toNat) {callee : Call Node}
    {body : Body callee.args.length} {result : Result}
    (hbody : c.store.bodyOf callee = .ok body)
    (hrun : (c.inside hroom).run callee.args body = (result, d)) :
  c.call callee = (result, c.withEnvironment d.environment)
  := by
  have hrest : c.limits.maxCallDepth.toNat - c.depth
      = c.limits.maxCallDepth.toNat - (c.depth + 1) + 1 := by omega
  have hfound : c.environment.store.bodyOf callee = .ok body := hbody
  obtain ⟨rfl, rfl⟩ := Prod.mk.inj hrun
  rw [call, answer, hrest, Stencil.answer, hfound]
  rfl

theorem call_member (hroom : c.depth < c.limits.maxCallDepth.toNat) (receiver : Value)
    {name : String} {m : Member} {result : Result} (scope : Option Scope)
    (hfind : Member.find? receiver.kind name = some m)
    (haccepts : m.arity.accepts args.length = true)
    (hrun : (c.inside hroom).run args (m.body ⟨name, receiver, scope⟩ args.length) = (result, d)) :
  c.call (.member receiver name args scope) = (result, c.withEnvironment d.environment)
  := by
  have hbody : c.store.bodyOf (.member receiver name args scope)
      = .ok (m.body ⟨name, receiver, scope⟩ args.length) := by
    rw [Store.bodyOf, Store.callee, hfind]
    exact if_pos haccepts
  apply call_of_run hroom hbody hrun

theorem run_done (result : Result) :
  c.run args (.done result) = (result, c)
  := rfl

theorem limits_of_evaluate {n : Node} {result : Result} (h : c.evaluate n = (result, d)) :
  d.limits = c.limits
  := by
  obtain ⟨-, rfl⟩ := Prod.mk.inj h
  rfl

theorem evaluate_literal (v : Value) :
  c.evaluate (.literal v) = (proceed v, c)
  := by
  rw [evaluate, Node.evaluate]
  rfl

/-- A body goes on with the value of an argument, in the context that its evaluation leaves. -/
theorem run_argument {v : Value} {invocation : Invocation} {i : Nat}
    {next : Value → Body args.length} (hi : i < args.length)
    (hv : c.evaluate args[i] = (proceed v, d)) :
  c.run args (invocation.argument i next) = d.run args (next v)
  := by
  obtain ⟨hresult, rfl⟩ := Prod.mk.inj hv
  rw [Invocation.argument, dif_pos hi, Body.value, run, run, Body.run]
  have hargument : (Operand.node (fun i => args[i]) (.arg ⟨i, hi⟩)).evaluate c.answer
      (Activation.environment ⟨c.store, [c.locals]⟩ 0)
        = (proceed v, (args[i].evaluate c.answer c.environment).2) :=
    Prod.ext hresult rfl
  rw [hargument]
  rfl

end Context

end Stencil
