import Stencil.Arity
import Stencil.Call
import Stencil.Limits
import Stencil.Node.Basic
import Stencil.Variable

/-!
# Bodies

A body is what runs when a function or a member is called.  It is a tree of steps: each
step asks the evaluation for one thing and says how to go on with the answer, and the last
one gives the result.

A body works on contexts that it knows by number.  Context `0` is the one of the caller;
forking a context gives a new one with the next free number, which starts with the same
local variables.  The global variables and the functions are common to all of them.

The arguments of a call are operands that a body can have evaluated or can hand on to
another call.  A body can also look into an argument: it gets to see the tree, and can have
any part of it evaluated like a tree of its own.

When a run is aborted the bodies in progress get to see no result any more (`Body.resume`).
-/

namespace Stencil

/-- What a body with `count` arguments can have evaluated: an argument, or another tree,
which is one of its own or a part of what it has seen. -/
inductive Operand (count : Nat) where
  | arg (i : Fin count)
  | tree (n : Node)

namespace Operand

/-- The tree of an operand, where the arguments are given. -/
def node {count : Nat} (args : Fin count → Node) : Operand count → Node
  | arg i => args i
  | tree n => n

/-- All arguments in order. -/
def all (count : Nat) : List (Operand count) := (List.finRange count).map arg

end Operand

/-- The steps of a body that is called with a number of arguments. -/
inductive Body : Nat → Type where
  /-- Ends with a result. -/
  | done {count : Nat} (result : Result) : Body count
  /-- Looks at the tree of an argument. -/
  | inspect {count : Nat} (i : Fin count) (next : Node → Body count) : Body count
  /-- Evaluates an operand in a context. -/
  | evaluate {count : Nat} (context : Nat) (operand : Operand count)
      (next : Result → Body count) : Body count
  /-- Calls a function or a member in a context. -/
  | call {count : Nat} (context : Nat) (callee : Call (Operand count))
      (next : Result → Body count) : Body count
  /-- Reads the variable that a name stands for in a context. -/
  | read {count : Nat} (context : Nat) (name : String)
      (next : Option Value → Body count) : Body count
  /-- Asks whether a name is bound globally. -/
  | isGlobal {count : Nat} (name : String) (next : Bool → Body count) : Body count
  /-- Asks whether a name is bound locally in a context. -/
  | isLocal {count : Nat} (context : Nat) (name : String) (next : Bool → Body count) :
      Body count
  /-- Asks for the arity of a function. -/
  | arity {count : Nat} (name : String) (next : Option Arity → Body count) : Body count
  /-- Binds a name locally in a context. -/
  | bind {count : Nat} (context : Nat) (name : String) (v : Variable)
      (next : Body count) : Body count
  /-- Binds a name globally. -/
  | define {count : Nat} (name : String) (v : Variable) (next : Body count) : Body count
  /-- Registers a function, which is given by its arity and its body. -/
  | register {count : Nat} (name : String) (arity : Arity)
      (body : (count : Nat) → Option Scope → Body count)
      (next : Attempt Unit → Body count) : Body count
  /-- Forks a context. -/
  | fork {count : Nat} (context : Nat) (next : Nat → Body count) : Body count
  /-- Asks how many calls are open. -/
  | depth {count : Nat} (next : Nat → Body count) : Body count
  /-- Asks for the limits of the run. -/
  | limits {count : Nat} (next : Limits → Body count) : Body count

namespace Body

variable {count : Nat}

/-- How a body goes on with the result of what it has evaluated or called; it does not if the
run is aborted. -/
def resume (next : Result → Body count) (result : Result) : Body count :=
  if result.aborts then .done result else next result

theorem resume_cases (next : Result → Body count) (result : Result) :
  (result.aborts = true ∧ resume next result = .done result)
    ∨ (result.aborts = false ∧ resume next result = next result)
  := by
  rw [resume]
  cases result.aborts with
  | true => exact .inl ⟨rfl, rfl⟩
  | false => exact .inr ⟨rfl, rfl⟩

/-- What holds of an aborted body and of all that `next` gives holds of a body that goes on. -/
theorem resume_elim {motive : Body count → Prop} {next : Result → Body count}
    (hnext : ∀ r, motive (next r)) (haborted : ∀ e, motive (.done (.error e)))
    (result : Result) :
  motive (resume next result)
  := by
  rcases resume_cases next result with ⟨haborts, hsame⟩ | ⟨-, hsame⟩
  · cases result with
    | ok outcome => cases haborts
    | error e => rw [hsame]; apply haborted
  · rw [hsame]; apply hnext

/-- A body that ends with a result does so in any case. -/
theorem resume_of_eq_done {next : Result → Body count} {result : Result}
    (h : next result = .done result) :
  resume next result = .done result
  := by
  rcases resume_cases next result with ⟨-, hsame⟩ | ⟨-, hsame⟩
  · exact hsame
  · rw [hsame, h]

@[simp]
theorem resume_done (result : Result) :
  resume done result = (done result : Body count)
  := resume_of_eq_done rfl

/-- Induction on bodies by what they go on with: what holds of a body that ends holds also of a
body that does not go on because the run is aborted. -/
theorem induction_on_resume {motive : (count : Nat) → Body count → Prop}
    (done : ∀ {count : Nat} (result : Result), motive count (.done result))
    (inspect : ∀ {count : Nat} (i : Fin count) (next : Node → Body count),
      (∀ n, motive count (next n)) → motive count (.inspect i next))
    (evaluate : ∀ {count : Nat} (context : Nat) (operand : Operand count)
      (next : Result → Body count), (∀ r, motive count (resume next r)) →
        motive count (.evaluate context operand next))
    (call : ∀ {count : Nat} (context : Nat) (callee : Call (Operand count))
      (next : Result → Body count), (∀ r, motive count (resume next r)) →
        motive count (.call context callee next))
    (read : ∀ {count : Nat} (context : Nat) (name : String)
      (next : Option Value → Body count), (∀ v, motive count (next v)) →
        motive count (.read context name next))
    (isGlobal : ∀ {count : Nat} (name : String) (next : Bool → Body count),
      (∀ b, motive count (next b)) → motive count (.isGlobal name next))
    (isLocal : ∀ {count : Nat} (context : Nat) (name : String) (next : Bool → Body count),
      (∀ b, motive count (next b)) → motive count (.isLocal context name next))
    (arity : ∀ {count : Nat} (name : String) (next : Option Arity → Body count),
      (∀ a, motive count (next a)) → motive count (.arity name next))
    (bind : ∀ {count : Nat} (context : Nat) (name : String) (v : Variable)
      (next : Body count), motive count next → motive count (.bind context name v next))
    (define : ∀ {count : Nat} (name : String) (v : Variable) (next : Body count),
      motive count next → motive count (.define name v next))
    (register : ∀ {count : Nat} (name : String) (accepted : Arity)
      (body : (count : Nat) → Option Scope → Body count) (next : Attempt Unit → Body count),
      (∀ outcome, motive count (next outcome)) →
        motive count (.register name accepted body next))
    (fork : ∀ {count : Nat} (context : Nat) (next : Nat → Body count),
      (∀ inner, motive count (next inner)) → motive count (.fork context next))
    (depth : ∀ {count : Nat} (next : Nat → Body count), (∀ n, motive count (next n)) →
      motive count (.depth next))
    (limits : ∀ {count : Nat} (next : Limits → Body count), (∀ l, motive count (next l)) →
      motive count (.limits next))
    {count : Nat} (body : Body count) :
  motive count body
  := by
  induction body with
  | done result => apply done
  | inspect i next ih => apply inspect i next ih
  | evaluate context operand next ih =>
      apply evaluate context operand next (resume_elim ih fun _ => done _)
  | call context callee next ih => apply call context callee next (resume_elim ih fun _ => done _)
  | read context name next ih => apply read context name next ih
  | isGlobal name next ih => apply isGlobal name next ih
  | isLocal context name next ih => apply isLocal context name next ih
  | arity name next ih => apply arity name next ih
  | bind context name v next ih => apply bind context name v next ih
  | define name v next ih => apply define name v next ih
  | register name accepted body next _ ih => apply register name accepted body next ih
  | fork context next ih => apply fork context next ih
  | depth next ih => apply depth next ih
  | limits next ih => apply limits next ih

/-- Evaluates an operand and goes on with its value; an error and an outcome that blocks
are the result. -/
def value (context : Nat) (operand : Operand count) (next : Value → Body count) :
    Body count :=
  .evaluate context operand fun
    | .ok (.proceed v) => next v
    | result => .done result

/-- A body that goes on with values only ends with every error in any case. -/
theorem resume_value (next : Value → Body count) (result : Result) :
  resume (fun | .ok (.proceed v) => next v | result => .done result) result
    = match result with
      | .ok (.proceed v) => next v
      | result => .done result
  := by
  match result with
  | .ok outcome => rfl
  | .error e => apply resume_of_eq_done rfl

/-- Evaluates operands from left to right and goes on with their values after those in
`before`, which are in reverse order; the first error or outcome that blocks is the
result. -/
def values (context : Nat) (operands : List (Operand count)) (before : List Value)
    (next : List Value → Body count) : Body count :=
  match operands with
  | [] => next before.reverse
  | operand :: rest =>
      value context operand fun v => values context rest (v :: before) next

/-- Evaluates all arguments in the context of the caller, from left to right. -/
def arguments (next : List Value → Body count) : Body count :=
  values 0 (Operand.all count) [] next

end Body

/-- A function: the number of arguments it accepts, and what it does with them and the
scope of the call. -/
structure Function where
  arity : Arity
  body : (count : Nat) → Option Scope → Body count

namespace Function

/-- The function that computes its result from the values of all its arguments. -/
def eager (arity : Arity) (compute : List Value → Attempt Value) : Function where
  arity := arity
  body _ _ := .arguments fun values => .done (.ofValue (compute values))

end Function

end Stencil
