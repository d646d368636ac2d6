import Stencil.Value.Basic

/-!
# Variables

A variable gives a value every time it is read.  A computed variable may give a different
value each time; which one depends only on how often the variable has been read before, no
matter through which name or context.
-/

namespace Stencil

/-- Something that a name can be bound to. -/
inductive Variable where
  /-- Gives the same value at every read. -/
  | constant (value : Value)
  /-- Gives `values n` when it has been read `n` times before. -/
  | computed (values : Nat → Value)

namespace Variable

/-- The variable that starts at `start` and grows by `step` with every read; past the
greatest integer it goes on with the least one. -/
def counter (start step : Int64) : Variable :=
  computed fun n => .integer (Int64.ofInt (start.toInt + n * step.toInt))

/-- The variable that gives the values in turn, and starts over after the last one. -/
def cycle (values : List Value) : Variable :=
  computed fun n => values.getD (n % values.length) .empty

end Variable

end Stencil
