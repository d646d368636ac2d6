import Stencil.Size

/-!
# Arities

An arity bounds how many arguments something callable accepts.  Both bounds are
inclusive, and the greatest size as the upper bound stands for "no upper bound".
Nothing requires the bounds to be in order: an arity whose lower bound is above its upper
bound accepts no count.
-/

namespace Stencil

/-- The least and the greatest number of arguments that is accepted. -/
structure Arity where
  least : Size
  most : Size
deriving DecidableEq

namespace Arity

/-- Exactly `count` arguments. -/
def exactly (count : Size) : Arity := ⟨count, count⟩

/-- Between `least` and `most` arguments. -/
def between (least most : Size) : Arity := ⟨least, most⟩

/-- No arguments. -/
def nullary : Arity := exactly 0

/-- Up to `most` arguments. -/
def atMost (most : Size) : Arity := ⟨0, most⟩

/-- At least `least` arguments. -/
def atLeast (least : Size) : Arity := ⟨least, Size.largest⟩

/-- Any number of arguments. -/
def any : Arity := atLeast 0

/-- Whether `count` arguments are accepted. -/
def accepts (a : Arity) (count : Nat) : Bool :=
  decide (a.least.toNat ≤ count) && decide (count ≤ a.most.toNat)

/-- Whether there is no upper bound. -/
def isUnbounded (a : Arity) : Bool := a.most == Size.largest

/-- The arity in words: `at least 1`, `2` or `1-3`. -/
def text (a : Arity) : String :=
  if a.isUnbounded then "at least " ++ toString a.least
  else if a.least = a.most then toString a.least
  else toString a.least ++ "-" ++ toString a.most

theorem accepts_iff {a : Arity} {count : Nat} :
  a.accepts count = true ↔ a.least.toNat ≤ count ∧ count ≤ a.most.toNat
  := by simp [accepts]

theorem accepts_exactly {n : Size} {count : Nat} :
  (exactly n).accepts count = true ↔ count = n.toNat
  := by
  rw [accepts_iff]
  simp only [exactly]
  omega

end Arity

end Stencil
