import Stencil.Proofs.Comparison
import Stencil.Proofs.Double.Text

/-!
# Equality and display texts

Values of one kind other than doubles have the same display text only if they are the same
(`Value.display_inj`).  So equality, which compares two booleans, two strings and two integers
directly, is equality of display texts there as well, and everywhere except between two numbers one
of which is a double (`Operator.equality_of_displays`).

Values of different kinds never have the same display text, unless one of them is a string
(`Value.kinds_displayed_apart`): the text of a double has a decimal point, an exponent, or letters.
-/

namespace Stencil

namespace Value

/-- Two numbers compare as doubles if one of them is one. -/
def CompareAsDoubles (a b : Value) : Prop :=
  a.isNumber = true ∧ b.isNumber = true ∧ (a.kind = .double ∨ b.kind = .double)

variable {a b : Value}

theorem isNumber_iff :
  a.isNumber = true ↔ a.kind = .double ∨ a.kind = .integer
  := by cases a <;> simp [isNumber, kind]

theorem integers_or_of_not_compareAsDoubles (h : ¬ CompareAsDoubles a b) :
  (∃ m n, a = integer m ∧ b = integer n) ∨ ¬ (a.isNumber = true ∧ b.isNumber = true)
  := by
  by_contra! hneither
  obtain ⟨hintegers, ha, hb⟩ := hneither
  apply h
  use ha, hb
  by_contra! hkinds
  obtain ⟨m, rfl⟩ := eq_integer_of_kind ((isNumber_iff.mp ha).resolve_left hkinds.1)
  obtain ⟨n, rfl⟩ := eq_integer_of_kind ((isNumber_iff.mp hb).resolve_left hkinds.2)
  apply hintegers m n rfl rfl

/-! ### Texts of values of one kind -/

/-- Integers have different texts, the least one among them. -/
theorem display_integer_inj {m n : Int64} :
  (integer m).display = (integer n).display ↔ m = n
  := by
  rw [display, display, Int.toString_eq_repr, Int.toString_eq_repr, Int.repr_inj, Int64.toInt_inj]

theorem display_boolean_inj {s t : Bool} :
  (boolean s).display = (boolean t).display ↔ s = t
  := by
  revert s t
  decide

theorem display_inj (hkind : a.kind = b.kind) (hdouble : a.kind ≠ .double) :
  a.display = b.display ↔ a = b
  := by
  cases a with
  | double d => contradiction
  | string s =>
      cases b with
      | string t => rw [display, display, string.injEq]
      | boolean _ | double _ | integer _ => contradiction
  | boolean s =>
      cases b with
      | boolean t => rw [display_boolean_inj, boolean.injEq]
      | string _ | double _ | integer _ => contradiction
  | integer m =>
      cases b with
      | integer n => rw [display_integer_inj, integer.injEq]
      | string _ | boolean _ | double _ => contradiction

/-! ### Texts of values of different kinds -/

/-- The letters of the booleans are not all in the text of a double. -/
theorem display_double_ne_boolean (d : Float) (b : Bool) :
  (double d).display ≠ (boolean b).display
  := by
  intro heq
  change Double.text d = _ at heq
  cases hfinite : Double.isFinite d with
  | true =>
      have hcharacters := fun c => Double.mem_text_of_isFinite hfinite (c := c)
      rw [heq] at hcharacters
      cases b with
      | true => exact absurd (hcharacters 'r' (by decide)) (by decide)
      | false => exact absurd (hcharacters 'l' (by decide)) (by decide)
  | false =>
      rcases Double.text_of_not_isFinite hfinite with htext | htext | htext <;> rw [htext] at heq
        <;> cases b <;> exact absurd heq (by decide)

theorem display_boolean_ne_integer (b : Bool) (n : Int64) :
  (boolean b).display ≠ (integer n).display
  := by
  intro heq
  have hcharacters : ∀ c ∈ (boolean b).display.toList, c.isDigit = true ∨ c = '-' := by
    rw [heq, display]
    exact fun c => Integer.mem_toString
  cases b with
  | true => exact absurd (hcharacters 'r' (by decide)) (by decide)
  | false => exact absurd (hcharacters 'l' (by decide)) (by decide)

/-- Integers, doubles and booleans have different texts, and no double has the text of an integer
that is too large for 64 bits either.  For a finite double this is because of how it is written: with a
fraction if it is of moderate size, and otherwise with an exponent.  The other doubles have names. -/
theorem kinds_displayed_apart (n : Int64) (d : Float) (b : Bool) :
  (integer n).display ≠ (double d).display
    ∧ (double d).display ≠ (boolean b).display
    ∧ (boolean b).display ≠ (integer n).display
    ∧ (∀ m : Int, (double d).display ≠ toString m)
    ∧ (Double.isFinite d = true → ∃ magnitude,
        (double d).display.toList = (if Double.isNegative d then ['-'] else []) ++ magnitude
          ∧ (Double.IsModerate (Double.value d) → Double.IsPositional magnitude)
          ∧ (¬ Double.IsModerate (Double.value d) → Double.IsScientific magnitude))
    ∧ (Double.isFinite d = false →
        (double d).display = "NaN" ∨ (double d).display = "inf" ∨ (double d).display = "-inf")
  := by
  refine ⟨?_, display_double_ne_boolean d b, display_boolean_ne_integer b n,
    Double.text_ne_toString d, fun hfinite => ?_, Double.text_of_not_isFinite⟩
  · exact (Double.text_ne_toString d n.toInt).symm
  · exact ⟨_, Double.text_of_isFinite hfinite, Double.magnitudeText_magnitudeBits d⟩

/-- The least and the greatest of the doubles that are written positionally, with their neighbours. -/
example :
  (Value.double (Float.ofBits 4547007122018943788)).display = "9.999999999999999e-5"
    ∧ (Value.double (Float.ofBits 4547007122018943789)).display = "0.0001"
    ∧ (Value.double (Float.ofBits 4846369599423283199)).display = "9999999999999998.0"
    ∧ (Value.double (Float.ofBits 4846369599423283200)).display = "1e16"
  := by decide +kernel

/-! ### Equality -/

theorem equals_integer_iff {m n : Int64} :
  (integer m).equals (integer n) = true ↔ m = n
  := by
  rw [equals_of_numbers rfl rfl, compare?_integer_integer, beq_iff_eq, Option.some.injEq,
    compare_eq_iff_eq, Int64.toInt_inj]

theorem equals_eq_decide (h : ¬ CompareAsDoubles a b) :
  a.equals b = decide (a.display = b.display)
  := by
  rw [Bool.eq_iff_iff, decide_eq_true_eq]
  obtain ⟨m, n, rfl, rfl⟩ | hnot := integers_or_of_not_compareAsDoubles h
  · rw [equals_integer_iff, display_integer_inj]
  · rw [equals_of_not_numbers hnot, beq_iff_eq]

end Value

namespace Operator

open Value (CompareAsDoubles)

variable {a b : Value}

/-- Unless two values compare as doubles, they are equal exactly if their display texts are.  For two
values of one kind this means that they are the same value. -/
theorem equality_of_displays (h : ¬ CompareAsDoubles a b) :
  eq.evaluate a b = .ok (.boolean (decide (a.display = b.display)))
    ∧ ne.evaluate a b = .ok (.boolean (decide (a.display ≠ b.display)))
    ∧ (a.kind = b.kind → (a.display = b.display ↔ a = b))
  := by
  have hequals := Value.equals_eq_decide h
  constructor
  · rw [evaluate, hequals]
  constructor
  · rw [evaluate, hequals, decide_not]
  · intro hkind
    apply Value.display_inj hkind
    intro hdouble
    apply h
    rw [CompareAsDoubles, Value.isNumber_iff, Value.isNumber_iff, ← hkind]
    exact ⟨.inl hdouble, .inl hdouble, .inl hdouble⟩

/-- The least integer is equal to its text, and not to the greatest integer, the digits of which
differ in the last one only. -/
theorem equality_of_displays_of_least :
  ∃ least greatest text : Value,
    least = .integer Int64.minValue ∧ greatest = .integer Int64.maxValue
      ∧ text = .string "-9223372036854775808"
      ∧ ¬ CompareAsDoubles least text ∧ eq.evaluate least text = .ok (.boolean true)
      ∧ ¬ CompareAsDoubles least greatest ∧ eq.evaluate least greatest = .ok (.boolean false)
  := by
  have htext : ¬ CompareAsDoubles (.integer Int64.minValue) (.string "-9223372036854775808") := by
    rintro ⟨-, hnumber, -⟩
    cases hnumber
  have hgreatest : ¬ CompareAsDoubles (.integer Int64.minValue) (.integer Int64.maxValue) := by
    rintro ⟨-, -, hkind | hkind⟩ <;> cases hkind
  obtain ⟨hleft, -⟩ := equality_of_displays htext
  obtain ⟨hright, -, hsame⟩ := equality_of_displays hgreatest
  refine ⟨_, _, _, rfl, rfl, rfl, htext, ?_, hgreatest, ?_⟩
  · rw [hleft]
    decide
  · rw [hright, decide_eq_false (mt (hsame rfl).mp (by decide))]

/-- Doubles are equal to integers with other texts, and the double that is not a number is not equal
to itself. -/
example :
  eq.evaluate (.integer 1) (.double 1.0) = .ok (.boolean true)
    ∧ (Value.double 1.0).display = "1.0"
    ∧ eq.evaluate (.double Double.nan) (.double Double.nan) = .ok (.boolean false)
  := by decide +kernel

end Operator

end Stencil
