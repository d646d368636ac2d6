import Stencil.Function.Body
import Stencil.Node.Outline
import Stencil.Value.Operation

/-!
# Stock functions

Functions that an application can offer to its templates.  The eager ones compute a value
from the values of all their arguments.  Others choose which of their arguments they
evaluate, in the context of the caller, and an outcome of an argument that blocks is their
result.  A function can also look into an argument, and evaluate a part of it or nothing of
it.  None of them relies on its arity: a missing argument of a function that is not eager is
the empty string.
-/

namespace Stencil.Function

/-! ### Eager functions -/

/-- The failure of a function that has got too few values. -/
def needsValues {α : Type} (count : Nat) : Attempt α :=
  .error (.ofMessage ("body needs " ++ toString count ++ " values"))

/-- The sum of all values, starting from zero. -/
def sum (arity : Arity) : Function :=
  eager arity fun values => values.foldlM Value.add (.integer 0)

/-- The display texts of all values as a list. -/
def list (arity : Arity) : Function :=
  eager arity fun values =>
    .ok (.string ("[" ++ String.intercalate "," (values.map Value.display) ++ "]"))

/-- The better of two values: the second one if it is greater. -/
def greater (best v : Value) : Attempt Value :=
  (Operator.gt.evaluate v best).bind fun isGreater =>
    isGreater.truth.map fun b => if b then v else best

/-- The greatest value, and of several equal ones the first. -/
def max (arity : Arity) : Function :=
  eager arity fun
    | [] => needsValues 1
    | first :: rest => rest.foldlM greater first

/-- The length of the first value. -/
def length (arity : Arity) : Function :=
  eager arity fun
    | v :: _ => v.length
    | [] => needsValues 1

/-- The character of the first value at the position given by the second. -/
def index (arity : Arity) : Function :=
  eager arity fun
    | receiver :: position :: _ => receiver.charAt position
    | _ => needsValues 2

/-- The same value for all arguments. -/
def constant (arity : Arity) (v : Value) : Function := eager arity fun _ => .ok v

/-- Fails with a message, once all arguments are evaluated. -/
def failure (arity : Arity) (message : String) : Function :=
  eager arity fun _ => .error (.ofMessage message)

/-! ### Functions of unevaluated arguments -/

variable {count : Nat}

/-- Goes on with the result of an argument; a missing argument gives the empty string. -/
def argumentResult (i : Nat) (next : Result → Body count) : Body count :=
  if h : i < count then .evaluate 0 (.arg ⟨i, h⟩) next else next (proceed .empty)

/-- Goes on with the value of an argument; a missing argument is the empty string. -/
def argument (i : Nat) (next : Value → Body count) : Body count :=
  argumentResult i fun
    | .ok (.proceed v) => next v
    | result => .done result

/-- The end of a body that contributes nothing to the output. -/
def nothing : Body count := .done (proceed .empty)

/-- The first argument. -/
def first (arity : Arity) : Function where
  arity := arity
  body _ _ := argumentResult 0 .done

/-- The last argument, without evaluating the others. -/
def last (arity : Arity) : Function where
  arity := arity
  body count _ := argumentResult (count - 1) .done

/-- The value of the last argument, after evaluating all of them. -/
def sequence (arity : Arity) : Function where
  arity := arity
  body _ _ := .arguments fun values => .done (proceed (values.getLast?.getD .empty))

/-- The second or the third argument, as the first one is true or false. -/
def choose (arity : Arity) : Function where
  arity := arity
  body _ _ := argument 0 fun condition =>
    match condition.truth with
    | .error e => .done (.error e)
    | .ok b => argumentResult (if b then 1 else 2) .done

/-- Calls another function with the same arguments and the same scope. -/
def forward (arity : Arity) (target : String) : Function where
  arity := arity
  body count scope := .call 0 (.function target (Operand.all count) scope) .done

/-- How many calls are open. -/
def depth (arity : Arity) : Function where
  arity := arity
  body _ _ := .depth fun n => .done (proceed (.integer (Int64.ofNat n)))

/-- The scope of the call. -/
def scope (arity : Arity) : Function where
  arity := arity
  body _ scope := .done (proceed (.string ((scope.map Scope.text).getD "none")))

/-- Binds the display text of the first argument globally to the value of the second. -/
def define (arity : Arity) : Function where
  arity := arity
  body _ _ := argument 0 fun name => argument 1 fun v =>
    .define name.display (.constant v) nothing

/-- Binds the display text of the first argument locally to the value of the second. -/
def bind (arity : Arity) : Function where
  arity := arity
  body _ _ := argument 0 fun name => argument 1 fun v =>
    .bind 0 name.display (.constant v) nothing

/-- Registers a function. -/
def register (arity : Arity) (name : String) (f : Function) : Function where
  arity := arity
  body _ _ := .register name f.arity f.body fun
    | .ok () => nothing
    | .error e => .done (.error e)

/-- Returns the value of the first argument from the block with the scope of the call. -/
def returning (arity : Arity) : Function where
  arity := arity
  body _ scope := argument 0 fun v => .done (.ok (.returning v scope))

/-- Terminates the run with the value of the first argument. -/
def terminate (arity : Arity) : Function where
  arity := arity
  body _ scope := argument 0 fun v => .done (.ok (.terminating v scope))

/-- The first argument, with the message of an error in place of the error. -/
def recover (arity : Arity) : Function where
  arity := arity
  body _ _ := argumentResult 0 fun
    | .ok outcome => .done (.ok outcome)
    | .error e => .done (proceed (.string e.message))

/-- The first argument, with an error turned into the cause of an error of its own. -/
def wrap (arity : Arity) (message : String) : Function where
  arity := arity
  body _ _ := argumentResult 0 fun
    | .ok outcome => .done (.ok outcome)
    | .error e => .done (.error ((Failure.ofMessage message).causedBy e))

/-- Binds names to values one after the other in a context. -/
def bindAll (context : Nat) (bindings : List (String × Value)) (next : Body count) :
    Body count :=
  bindings.foldr (fun (name, v) rest => .bind context name (.constant v) rest) next

/-- Evaluates a tree of its own in a fork of the context of the caller, where the
parameters are bound to the values of the arguments. -/
def template (arity : Arity) (params : List String) (tree : Node) : Function where
  arity := arity
  body _ _ := .arguments fun values => .fork 0 fun inner =>
    bindAll inner (params.zip values) (.evaluate inner (.tree tree) .done)

/-! ### Functions that look into their arguments -/

/-- Goes on with the tree of an argument; a missing argument gives the empty string. -/
def argumentTree (i : Nat) (next : Node → Body count) : Body count :=
  if h : i < count then .inspect ⟨i, h⟩ next else nothing

/-- What the node of the first argument is. -/
def label (arity : Arity) : Function where
  arity := arity
  body _ _ := argumentTree 0 fun n => .done (proceed (.string n.label))

/-- The first subtree of the first argument, without what the argument makes of it. -/
def unwrap (arity : Arity) : Function where
  arity := arity
  body _ _ := argumentTree 0 fun n =>
    match n.children with
    | [] => nothing
    | part :: _ => .evaluate 0 (.tree part) .done

end Stencil.Function
