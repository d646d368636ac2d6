import Stencil.Proofs.Plain

/-!
# Prompt bodies

A body is prompt if it hands back at once, and as it is, every error and every outcome that
blocks which it gets from an operand or from a call.  Plain bodies are prompt (`Body.Plain.prompt`),
among them those of eager functions and of all members.  The other functions are up to the
application: `PromptCalls` says of the events of a run that the functions which were called
are eager or have prompt bodies.
-/

namespace Stencil

namespace Body

variable {count : Nat}

/-- Whatever an operand or a call gives, the body ends with it if it blocks. -/
def Prompt {count : Nat} : Body count → Prop
  | .done _ => True
  | .inspect _ next => ∀ n, (next n).Prompt
  | .evaluate _ _ next =>
      (∀ r, Result.blocks r = true → next r = .done r) ∧ ∀ r, (next r).Prompt
  | .call _ _ next => (∀ r, Result.blocks r = true → next r = .done r) ∧ ∀ r, (next r).Prompt
  | .read _ _ next => ∀ v, (next v).Prompt
  | .isGlobal _ next => ∀ b, (next b).Prompt
  | .isLocal _ _ next => ∀ b, (next b).Prompt
  | .arity _ next => ∀ arity, (next arity).Prompt
  | .bind _ _ _ next => next.Prompt
  | .define _ _ next => next.Prompt
  | .register _ _ _ next => ∀ outcome, (next outcome).Prompt
  | .fork _ next => ∀ context, (next context).Prompt
  | .depth next => ∀ depth, (next depth).Prompt
  | .limits next => ∀ limits, (next limits).Prompt
termination_by structural body => body

theorem Prompt.resume {next : Result → Body count}
    (h : (∀ r, Result.blocks r = true → next r = .done r) ∧ ∀ r, (next r).Prompt) :
  (∀ r, Result.blocks r = true → resume next r = .done r) ∧ ∀ r, (resume next r).Prompt
  := by
  obtain ⟨hblocks, hnext⟩ := h
  constructor
  · intro r hr
    apply resume_of_eq_done (hblocks r hr)
  · apply resume_elim hnext
    intro e
    trivial

theorem prompt_value (context : Nat) (operand : Operand count) {next : Value → Body count}
    (h : ∀ v, (next v).Prompt) :
  (value context operand next).Prompt
  := by
  constructor
  · intro r hblocks
    match r with
    | .ok (.proceed v) => contradiction
    | .ok (.returning v s) => rfl
    | .ok (.terminating v s) => rfl
    | .error e => rfl
  · intro r
    match r with
    | .ok (.proceed v) => apply h
    | .ok (.returning v s) => trivial
    | .ok (.terminating v s) => trivial
    | .error e => trivial

/-- Plain bodies are prompt. -/
theorem Plain.prompt {own : Signal → Prop} {body : Body count} (h : body.Plain own) :
  body.Prompt
  := by
  induction h with
  | done result h => trivial
  | value context i h ih => apply prompt_value _ _ ih
  | call context callee h => exact ⟨fun r hblocks => rfl, fun r => trivial⟩
  | read context name h ih => exact ih
  | isGlobal name h ih => exact ih
  | bind context name v h ih => exact ih
  | fork context h ih => exact ih
  | withinLimit operation source length h ih =>
      exact Member.withinLimit_elim (motive := Prompt) ih (fun _ => trivial) id _ _ _

end Body

/-! ### Calls of functions -/

/-- A call of a function is prompt if the function is eager, or if the body that it runs is
prompt.  Every other activity is. -/
def Activity.Prompt : Activity → Prop
  | call (.function _ args scope) body =>
      (∃ arity compute, body = (Function.eager arity compute).body args.length scope)
        ∨ body.Prompt
  | _ => True

/-- If something starts, it is prompt. -/
def Event.Prompt : Event → Prop
  | starts a => a.Prompt
  | _ => True

/-- All calls that start are prompt. -/
def PromptCalls (events : List Event) : Prop := ∀ e ∈ events, e.Prompt

theorem PromptCalls.inside {a : Activity} {inner rest : List Event}
    (h : PromptCalls (.starts a :: (inner ++ rest))) :
  a.Prompt ∧ PromptCalls inner
  := by
  obtain ⟨ha, hrest⟩ := List.forall_mem_cons.mp h
  constructor
  · apply ha
  · apply (List.forall_mem_append.mp hrest).1

theorem Activity.prompt_iff_callsOnly {a : Activity} :
  a.Prompt ↔ a.CallsOnly Body.Prompt
  := by
  cases a with
  | node n => rfl
  | call callee body => cases callee <;> rfl

/-- The body that a prompt call runs is prompt. -/
theorem Activity.Prompt.body {s : Store} {callee : Call Node} {body : Body callee.args.length}
    (h : (Activity.call callee body).Prompt) (hbody : s.bodyOf callee = .ok body) :
  body.Prompt
  := (Activity.prompt_iff_callsOnly.mp h).body (fun h => (h.plain fun _ => False).prompt) hbody

end Stencil
