import Stencil.Arity

/-!
# Errors

An evaluation fails for a reason, a `Fault`, and an error may carry the chain of errors
that brought it about.  The wording of every fault is in `Fault.message`, and
`Failure.report` adds one line for each cause.

One fault is no error that anything can go on from: a text that is longer than any text can
be aborts the run (`Failure.aborts`).
-/

namespace Stencil

/-- Why an evaluation failed. -/
inductive Fault where
  | unsupportedOperation (operation type : String)
  | typeMismatch (operation left right : String)
  | divisionByZero
  | moduloByZero
  | integerOverflow (operation : String)
  | notANumber (operation : String)
  | indexOutOfBounds (index : Int64) (length : Nat)
  | undefinedVariable (name : String)
  | undefinedFunction (name : String)
  | undefinedMember (member type : String)
  | arityMismatch (name : String) (expected : Arity) (got : Nat)
  | globalRedefinition (name : String)
  | functionAlreadyExists (name : String)
  | callDepthExceeded (limit : Size)
  | stringTooLong (operation : String) (length : Nat) (limit : Size)
  | custom (message : String)
  /-- A text is to be built that takes more bytes than any text can.  This aborts the run. -/
  | capacityOverflow
deriving DecidableEq

/-- The fault in words. -/
def Fault.message : Fault → String
  | unsupportedOperation operation type =>
      "unsupported operation `" ++ operation ++ "` for type " ++ type
  | typeMismatch operation left right =>
      "cannot apply `" ++ operation ++ "` to " ++ left ++ " and " ++ right
  | divisionByZero => "division by zero"
  | moduloByZero => "modulo by zero"
  | integerOverflow operation => "integer overflow in " ++ operation
  | notANumber operation => operation ++ " produced a value that is not a finite number"
  | indexOutOfBounds index length =>
      "index " ++ toString index.toInt ++ " out of bounds for length " ++ toString length
  | undefinedVariable name => "undefined variable: " ++ name
  | undefinedFunction name => "undefined function: " ++ name
  | undefinedMember member type =>
      "no such member function '" ++ member ++ "' on type " ++ type
  | arityMismatch name expected got =>
      name ++ " expected " ++ expected.text ++ " arguments, got " ++ toString got
  | globalRedefinition name =>
      "cannot assign to `" ++ name ++ "`: already defined as a global variable"
  | functionAlreadyExists name => "function already exists: " ++ name
  | callDepthExceeded limit =>
      "maximum call depth exceeded (limit: " ++ toString limit ++ ")"
  | stringTooLong operation length limit =>
      operation ++ " would produce " ++ toString length ++ " bytes (limit: "
        ++ toString limit ++ ")"
  | custom message => message
  | capacityOverflow => "capacity overflow"

/-- What brought an error about: another fault, or a failure outside the evaluation of
which only the text is known. -/
inductive Cause where
  | fault (f : Fault)
  | foreign (text : String)
deriving DecidableEq

/-- The cause in words. -/
def Cause.message : Cause → String
  | fault f => f.message
  | foreign text => text

/-- A failed evaluation: its fault, and its causes from the nearest to the farthest. -/
structure Failure where
  fault : Fault
  causes : List Cause := []
deriving DecidableEq

namespace Failure

/-- The error that only has a message. -/
def ofMessage (message : String) : Failure := ⟨.custom message, []⟩

/-- The error `e` brought about by the error `cause`. -/
def causedBy (e cause : Failure) : Failure :=
  { e with causes := .fault cause.fault :: cause.causes }

/-- What the error says, without its causes. -/
def message (e : Failure) : String := e.fault.message

/-- What the error says, and what each of its causes says on a line of its own. -/
def report (e : Failure) : String :=
  e.causes.foldl (fun text cause => text ++ "\ncaused by: " ++ cause.message) e.message

/-- Whether the run is aborted: nothing gets to see the error, and nothing goes on. -/
def aborts (e : Failure) : Bool := decide (e.fault = .capacityOverflow)

end Failure

/-- The result of an evaluation that may fail. -/
abbrev Attempt (α : Type) := Except Failure α

/-- The failure for the given reason, without causes. -/
def fail {α : Type} (f : Fault) : Attempt α := .error ⟨f, []⟩

/-- The end of a run that is aborted. -/
def abort {α : Type} : Attempt α := fail .capacityOverflow

/-- Whether the run is aborted. -/
def Attempt.aborts {α : Type} : Attempt α → Bool
  | .ok _ => false
  | .error e => e.aborts

end Stencil
