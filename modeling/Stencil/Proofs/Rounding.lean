import Stencil.Proofs.Double.Bits
import Stencil.Proofs.Double.Exact
import Stencil.Proofs.Member

/-!
# Rounding to integers

The members `round`, `floor` and `ceil` of doubles give the integer to which the rational number of
the double is rounded.  If that integer has more than 64 bits, then they fail, so that the integer
nearest to it among those of 64 bits never takes its place (`Context.rounds_exactly`).
-/

namespace Stencil

namespace Member

/-- The members of doubles, each with the rounding of rational numbers that it stands for. -/
def roundings : List (String × (ℚ → ℤ)) :=
  [("round", Double.nearest), ("floor", Int.floor), ("ceil", Int.ceil)]

theorem mem_roundings :
  ("round", Double.nearest) ∈ roundings ∧ ("floor", Int.floor) ∈ roundings
    ∧ ("ceil", Int.ceil) ∈ roundings
  := by simp [roundings]

theorem exists_rounding_of_mem {name : String} {r : ℚ → ℤ} (h : (name, r) ∈ roundings) :
  ∃ round, find? .double name = some (rounding name round) ∧ ∀ d, round d = r (Double.value d)
  := by
  simp only [roundings, List.mem_cons, Prod.mk.injEq, List.not_mem_nil, or_false] at h
  obtain ⟨rfl, rfl⟩ | ⟨rfl, rfl⟩ | ⟨rfl, rfl⟩ := h
  · use Double.round, rfl, Double.round_eq
  · use Double.floor, rfl, Double.floor_eq
  · use Double.ceil, rfl, Double.ceil_eq

end Member

namespace Context

/-- What a member of doubles gives for a double. -/
def rounded (c : Context) (d : Float) (scope : Option Scope) (name : String) : Result × Context :=
  c.call (.member (.double d) name [] scope)

section Rounded

variable {c : Context} (hroom : c.depth < c.limits.maxCallDepth.toNat) (d : Float)
  (scope : Option Scope) {name : String} {r : ℚ → ℤ}

include hroom

theorem exists_rounded_eq (h : (name, r) ∈ Member.roundings) :
  ∃ round, (∀ d, round d = r (Double.value d))
    ∧ c.rounded d scope name = (.ofValue ((Double.toInteger round name d).map .integer), c)
  := by
  obtain ⟨round, hfind, hround⟩ := Member.exists_rounding_of_mem h
  use round, hround
  have hrun : (c.inside hroom).run [] ((Member.rounding name round).body ⟨name, .double d, scope⟩ 0)
      = (.ofValue ((Double.toInteger round name d).map .integer), c.inside hroom) :=
    run_done _
  apply call_member hroom (.double d) scope hfind rfl hrun

/-- A double is rounded to an integer exactly if it is finite and its rational number is. -/
theorem rounded_eq_integer_iff (h : (name, r) ∈ Member.roundings) {n : Int64} :
  c.rounded d scope name = (proceed (.integer n), c)
    ↔ Double.isFinite d = true ∧ r (Double.value d) = n.toInt
  := by
  obtain ⟨round, hround, hcall⟩ := exists_rounded_eq hroom d scope h
  rw [hcall, ← hround, ← @Double.toInteger_eq_ok_iff round name]
  cases Double.toInteger round name d <;> simp [Result.ofValue, proceed, Except.map]

theorem rounded_eq_error_iff (h : (name, r) ∈ Member.roundings) {e : Failure} :
  c.rounded d scope name = (.error e, c)
    ↔ Double.isFinite d = false ∧ e = ⟨.notANumber name, []⟩
      ∨ Double.isFinite d = true ∧ ¬ Integer.Fits (r (Double.value d))
        ∧ e = ⟨.integerOverflow name, []⟩
  := by
  obtain ⟨round, hround, hcall⟩ := exists_rounded_eq hroom d scope h
  rw [hcall, ← hround, ← Double.toInteger_eq_error_iff]
  cases Double.toInteger round name d <;> simp [Result.ofValue, Except.map]

/-- The members `round`, `floor` and `ceil` give an integer exactly if the double is finite and its
rational number is rounded to an integer of 64 bits, and that is the integer they give.  What is not
finite is not a number, and there is an overflow for all other doubles.  So the integers that two of
them give are in order, and those below and above a double are neighbours, or the same if the double
is an integer. -/
theorem rounds_exactly :
  (∀ name r, (name, r) ∈ Member.roundings →
      (∀ n : Int64, c.rounded d scope name = (proceed (.integer n), c)
        ↔ Double.isFinite d = true ∧ r (Double.value d) = n.toInt)
      ∧ ((∃ n, c.rounded d scope name = (proceed (.integer n), c))
        ↔ Double.isFinite d = true ∧ -2 ^ 63 ≤ r (Double.value d) ∧ r (Double.value d) < 2 ^ 63)
      ∧ (c.rounded d scope name = (fail (.notANumber name), c)
        ↔ Double.isNaN d = true ∨ d ∈ Double.infinities)
      ∧ (c.rounded d scope name = (fail (.integerOverflow name), c)
        ↔ Double.isFinite d = true
          ∧ ¬ (-2 ^ 63 ≤ r (Double.value d) ∧ r (Double.value d) < 2 ^ 63)))
    ∧ ∀ m n : Int64,
      (c.rounded d scope "floor" = (proceed (.integer m), c) →
        c.rounded d scope "round" = (proceed (.integer n), c) → m.toInt ≤ n.toInt)
      ∧ (c.rounded d scope "round" = (proceed (.integer m), c) →
        c.rounded d scope "ceil" = (proceed (.integer n), c) → m.toInt ≤ n.toInt)
      ∧ (c.rounded d scope "floor" = (proceed (.integer m), c) →
        c.rounded d scope "ceil" = (proceed (.integer n), c) →
          (n.toInt - m.toInt = 0 ∨ n.toInt - m.toInt = 1)
            ∧ (n.toInt - m.toInt = 0 ↔ ∃ k : ℤ, Double.value d = k))
  := by
  constructor
  · intro name r h
    have hinteger := fun n => rounded_eq_integer_iff hroom d scope h (n := n)
    have hfits : Integer.Fits (r (Double.value d))
        ↔ -2 ^ 63 ≤ r (Double.value d) ∧ r (Double.value d) < 2 ^ 63 := Integer.fits_iff
    refine ⟨hinteger, ?_, ?_, ?_⟩
    · simp only [hinteger, exists_and_left, ← Integer.fits_iff_exists, hfits]
    · rw [fail, rounded_eq_error_iff hroom d scope h, ← Double.isFinite_eq_false_iff]
      simp
    · rw [fail, rounded_eq_error_iff hroom d scope h, hfits]
      simp
  · intro m n
    obtain ⟨hround, hfloor, hceil⟩ := Member.mem_roundings
    simp only [rounded_eq_integer_iff hroom d scope hround,
      rounded_eq_integer_iff hroom d scope hfloor, rounded_eq_integer_iff hroom d scope hceil]
    refine ⟨?_, ?_, ?_⟩
    · rintro ⟨-, hm⟩ ⟨-, hn⟩
      rw [← hm, ← hn]
      apply Double.floor_le_nearest
    · rintro ⟨-, hm⟩ ⟨-, hn⟩
      rw [← hm, ← hn]
      apply Double.nearest_le_ceil
    · rintro ⟨-, hm⟩ ⟨-, hn⟩
      rw [← hm, ← hn]
      constructor
      · apply Double.ceil_sub_floor
      · rw [sub_eq_zero, Double.ceil_eq_floor_iff]

end Rounded

/-- From halfway between two integers, `round` goes away from zero.  The double nearest to the
greatest integer is one more than that, so that it is an overflow, and the double below is not. -/
theorem rounds_exactly_of_halfway :
  ∃ c : Context, c.depth < c.limits.maxCallDepth.toNat
    ∧ c.rounded (-2.5) none "round" = (proceed (.integer (-3)), c)
    ∧ c.rounded (-2.5) none "ceil" = (proceed (.integer (-2)), c)
    ∧ c.rounded 9223372036854775808.0 none "floor" = (fail (.integerOverflow "floor"), c)
    ∧ c.rounded 9223372036854774784.0 none "floor"
      = (proceed (.integer 9223372036854774784), c)
    ∧ c.rounded (1.0 / 0.0) none "round" = (fail (.notANumber "round"), c)
  := by
  let c := root Limits.standard
  have hroom : c.depth < c.limits.maxCallDepth.toNat := by decide
  obtain ⟨hround, hfloor, hceil⟩ := Member.mem_roundings
  refine ⟨c, hroom, ?_, ?_, ?_, ?_, ?_⟩
  · obtain ⟨hinteger, -⟩ := (rounds_exactly hroom (-2.5) none).1 _ _ hround
    apply (hinteger _).mpr
    rw [← Double.round_eq]
    decide +kernel
  · obtain ⟨hinteger, -⟩ := (rounds_exactly hroom (-2.5) none).1 _ _ hceil
    apply (hinteger _).mpr
    rw [← Double.ceil_eq]
    decide +kernel
  · obtain ⟨-, -, -, hoverflow⟩ :=
      (rounds_exactly hroom 9223372036854775808.0 none).1 _ _ hfloor
    apply hoverflow.mpr
    rw [← Double.floor_eq]
    decide +kernel
  · obtain ⟨hinteger, -⟩ := (rounds_exactly hroom 9223372036854774784.0 none).1 _ _ hfloor
    apply (hinteger _).mpr
    rw [← Double.floor_eq]
    decide +kernel
  · obtain ⟨-, -, hnan, -⟩ := (rounds_exactly hroom (1.0 / 0.0) none).1 _ _ hround
    apply hnan.mpr
    right
    apply List.mem_cons_self

end Context

end Stencil
