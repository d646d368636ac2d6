import Stencil.Proofs.Double.Nearest
import Stencil.Value.Operation

/-!
# Comparing values

Two numbers compare in one of three ways, or not at all if one of them is the double that is not
a number (`Value.compare?`).  All six comparison operators look at this alone, so that they agree
with each other (`Operator.comparisons_cohere`); equality also compares what is not a number.

Two integers compare exactly, and otherwise a number compares as its nearest double.  So equality
is not transitive, but the order is: of two integers the greater one never has the smaller double
(`Operator.lt_orders_strictly`).
-/

namespace Stencil

/-! ### How two numbers compare -/

theorem Double.compare?_swap (a b : Float) :
  compare? b a = (compare? a b).map Ordering.swap
  := by
  rw [compare?, compare?, Bool.or_comm, apply_ite (Option.map Ordering.swap), Option.map_none,
    Option.map_some, ← Std.OrientedCmp.eq_swap]

namespace NumberPair

/-- The same numbers the other way round. -/
def swap : NumberPair → NumberPair
  | integers a b => integers b a
  | doubles a b => doubles b a

theorem compare?_swap (pair : NumberPair) :
  pair.swap.compare? = pair.compare?.map Ordering.swap
  := by
  cases pair with
  | integers a b =>
      rw [swap, compare?, compare?, Option.map_some, ← Std.OrientedCmp.eq_swap]
  | doubles a b => apply Double.compare?_swap

theorem of?_swap (a b : Value) :
  of? b a = (of? a b).map swap
  := by cases a <;> cases b <;> rfl

end NumberPair

namespace Value

/-- Whether a value is the double that is not a number. -/
def isNaN : Value → Bool
  | double d => Double.isNaN d
  | _ => false

/-- How two values compare, if both are numbers and neither is the double that is not a number. -/
def compare? (a b : Value) : Option Ordering := (NumberPair.of? a b).bind NumberPair.compare?

section Equations

variable (x y : Float) (m n : Int64)

theorem isNaN_double :
  (double x).isNaN = Double.isNaN x
  := rfl

theorem isNaN_integer :
  (integer n).isNaN = false
  := rfl

theorem compare?_double_double :
  (double x).compare? (double y) = Double.compare? x y
  := by rw [compare?, NumberPair.of?, Option.bind_some, NumberPair.compare?]

theorem compare?_double_integer :
  (double x).compare? (integer n) = Double.compare? x (Double.ofInt n.toInt)
  := by rw [compare?, NumberPair.of?, Option.bind_some, NumberPair.compare?]

theorem compare?_integer_double :
  (integer m).compare? (double y) = Double.compare? (Double.ofInt m.toInt) y
  := by rw [compare?, NumberPair.of?, Option.bind_some, NumberPair.compare?]

theorem compare?_integer_integer :
  (integer m).compare? (integer n) = some (compare m.toInt n.toInt)
  := by rw [compare?, NumberPair.of?, Option.bind_some, NumberPair.compare?]

end Equations

variable {a b c : Value}

theorem compare?_swap (a b : Value) :
  b.compare? a = (a.compare? b).map Ordering.swap
  := by
  rw [compare?, compare?, NumberPair.of?_swap a b]
  cases NumberPair.of? a b with
  | none => rfl
  | some pair => apply pair.compare?_swap

theorem exists_of_isNumber (h : a.isNumber = true) :
  (∃ d, a = double d) ∨ ∃ n, a = integer n
  := by
  cases a with
  | double d => exact .inl ⟨d, rfl⟩
  | integer n => exact .inr ⟨n, rfl⟩
  | string _ | boolean _ => cases h

/-- Two numbers do not compare exactly if one of them is the double that is not a number. -/
theorem compare?_eq_none_iff (ha : a.isNumber = true) (hb : b.isNumber = true) :
  a.compare? b = none ↔ a.isNaN = true ∨ b.isNaN = true
  := by
  obtain ⟨x, rfl⟩ | ⟨m, rfl⟩ := exists_of_isNumber ha
  · obtain ⟨y, rfl⟩ | ⟨n, rfl⟩ := exists_of_isNumber hb
    · rw [compare?_double_double, Double.compare?_eq_none_iff, isNaN_double, isNaN_double]
    · rw [compare?_double_integer, Double.compare?_eq_none_iff, Double.isNaN_ofInt, isNaN_double,
        isNaN_integer]
  · obtain ⟨y, rfl⟩ | ⟨n, rfl⟩ := exists_of_isNumber hb
    · rw [compare?_integer_double, Double.compare?_eq_none_iff, Double.isNaN_ofInt, isNaN_double,
        isNaN_integer]
    · simp [compare?_integer_integer, isNaN_integer]

theorem numberPair_of_not_numbers (h : ¬ (a.isNumber = true ∧ b.isNumber = true)) :
  NumberPair.of? a b = none
  := by
  rw [← Option.not_isSome_iff_eq_none, NumberPair.isSome_of?_iff]
  exact h

theorem exists_numberPair (ha : a.isNumber = true) (hb : b.isNumber = true) :
  ∃ pair, NumberPair.of? a b = some pair
  := Option.isSome_iff_exists.mp (NumberPair.isSome_of?_iff.mpr ⟨ha, hb⟩)

/-! ### What the operators look at -/

theorem orders_of_numbers (operation : String) (accept : Ordering → Bool)
    (ha : a.isNumber = true) (hb : b.isNumber = true) :
  a.orders operation accept b = .ok (boolean ((a.compare? b).any accept))
  := by
  obtain ⟨pair, hpair⟩ := exists_numberPair ha hb
  rw [orders, numbers, compare?, hpair]
  rfl

theorem orders_of_not_numbers (operation : String) (accept : Ordering → Bool)
    (h : ¬ (a.isNumber = true ∧ b.isNumber = true)) :
  a.orders operation accept b = fail (mismatch operation a b)
  := by
  rw [orders, numbers, numberPair_of_not_numbers h]
  rfl

theorem equals_of_numbers (ha : a.isNumber = true) (hb : b.isNumber = true) :
  a.equals b = (a.compare? b == some .eq)
  := by
  obtain ⟨pair, hpair⟩ := exists_numberPair ha hb
  rw [compare?, hpair, Option.bind_some]
  obtain ⟨x, rfl⟩ | ⟨m, rfl⟩ := exists_of_isNumber ha
  all_goals
    rw [equals, hpair]
    · intro _ _ h
      cases h
    · intro _ _ h
      cases h

/-- Values that are not both numbers are equal exactly if their display texts are. -/
theorem equals_of_not_numbers (h : ¬ (a.isNumber = true ∧ b.isNumber = true)) :
  a.equals b = (a.display == b.display)
  := by
  have hnone := numberPair_of_not_numbers h
  cases a with
  | boolean s =>
      cases b with
      | boolean t =>
          revert s t
          decide
      | string _ | double _ | integer _ => simp only [equals, hnone]
  | string s => cases b <;> simp only [equals, hnone, display]
  | double _ | integer _ => cases b <;> simp only [equals, hnone]

theorem equals_comm (a b : Value) :
  a.equals b = b.equals a
  := by
  by_cases h : a.isNumber = true ∧ b.isNumber = true
  · rw [equals_of_numbers h.1 h.2, equals_of_numbers h.2 h.1, compare?_swap a b]
    cases a.compare? b with
    | none => rfl
    | some o => cases o <;> rfl
  · rw [equals_of_not_numbers h, equals_of_not_numbers (mt And.symm h)]
    apply Bool.beq_comm

/-! ### Numbers as doubles -/

theorem eq_integer_of_kind (h : a.kind = .integer) :
  ∃ n, a = integer n
  := by
  cases a with
  | integer n => exact ⟨n, rfl⟩
  | string _ | boolean _ | double _ => cases h

/-- The number of units of a number, where an integer is taken as the double nearest to it. -/
def units? : Value → Option Int
  | double d => if Double.isNaN d then none else some (Double.units d)
  | integer n => some (Double.units (Double.ofInt n.toInt))
  | _ => none

/-- A double compares with another number by the units of the two. -/
theorem compare?_eq_of_units (h : ¬ (a.kind = .integer ∧ b.kind = .integer)) :
  a.compare? b = a.units?.bind fun x => b.units?.map fun y => compare x y
  := by
  cases a with
  | string s => rfl
  | boolean s => rfl
  | double x =>
      cases b with
      | string t => cases hx : (double x).units? <;> rfl
      | boolean t => cases hx : (double x).units? <;> rfl
      | double y =>
          rw [compare?_double_double, Double.compare?, units?, units?]
          cases Double.isNaN x <;> cases Double.isNaN y <;> rfl
      | integer n =>
          rw [compare?_double_integer, Double.compare?, units?, units?, Double.isNaN_ofInt]
          cases Double.isNaN x <;> rfl
  | integer m =>
      cases b with
      | string t => rfl
      | boolean t => rfl
      | double y =>
          rw [compare?_integer_double, Double.compare?, units?, units?, Double.isNaN_ofInt]
          cases Double.isNaN y <;> rfl
      | integer n => exact absurd ⟨rfl, rfl⟩ h

/-- The smaller of two numbers has less units than the other, or it has at most as many and both are
integers. -/
theorem units_of_lt (h : a.compare? b = some .lt) :
  ∃ x y, a.units? = some x ∧ b.units? = some y
    ∧ (x < y ∨ x ≤ y ∧ ∃ m n, a = integer m ∧ b = integer n ∧ m.toInt < n.toInt)
  := by
  by_cases hintegers : a.kind = .integer ∧ b.kind = .integer
  · obtain ⟨m, rfl⟩ := eq_integer_of_kind hintegers.1
    obtain ⟨n, rfl⟩ := eq_integer_of_kind hintegers.2
    rw [compare?_integer_integer, Option.some.injEq, compare_lt_iff_lt] at h
    exact ⟨_, _, rfl, rfl, .inr ⟨Double.units_ofInt_le (Int.le_of_lt h), m, n, rfl, rfl, h⟩⟩
  · rw [compare?_eq_of_units hintegers] at h
    obtain ⟨x, hx, h⟩ := Option.bind_eq_some_iff.mp h
    obtain ⟨y, hy, h⟩ := Option.map_eq_some_iff.mp h
    exact ⟨x, y, hx, hy, .inl (compare_lt_iff_lt.mp h)⟩

/-- A number with less units than another is the smaller one. -/
theorem lt_of_units {x y : Int} (ha : a.units? = some x) (hb : b.units? = some y) (h : x < y) :
  a.compare? b = some .lt
  := by
  by_cases hintegers : a.kind = .integer ∧ b.kind = .integer
  · obtain ⟨m, rfl⟩ := eq_integer_of_kind hintegers.1
    obtain ⟨n, rfl⟩ := eq_integer_of_kind hintegers.2
    rw [compare?_integer_integer, Option.some.injEq, compare_lt_iff_lt]
    obtain rfl := Option.some.inj ha
    obtain rfl := Option.some.inj hb
    by_contra hle
    have hunits := Double.units_ofInt_le (Int.not_lt.mp hle)
    omega
  · rw [compare?_eq_of_units hintegers, ha, hb, Option.bind_some, Option.map_some,
      compare_lt_iff_lt.mpr h]

theorem lt_trans (hab : a.compare? b = some .lt) (hbc : b.compare? c = some .lt) :
  a.compare? c = some .lt
  := by
  obtain ⟨x, y, hx, hy, hxy⟩ := units_of_lt hab
  obtain ⟨y', z, hy', hz, hyz⟩ := units_of_lt hbc
  obtain rfl : y = y' := Option.some.inj (hy.symm.trans hy')
  -- One strict step is enough; without one, all three numbers are integers.
  obtain hxy | ⟨hxy, m, n, rfl, rfl, hmn⟩ := hxy
  · exact lt_of_units hx hz (by omega)
  obtain hyz | ⟨hyz, n', k, hn, rfl, hnk⟩ := hyz
  · exact lt_of_units hx hz (by omega)
  obtain rfl := integer.inj hn
  rw [compare?_integer_integer, Option.some.injEq, compare_lt_iff_lt]
  omega

end Value

/-! ### The operators -/

namespace Operator

/-- The operators that compare by order. -/
def orderings : List Operator := [gt, lt, ge, le]

theorem exists_orders_of_mem {op : Operator} (h : op ∈ orderings) :
  ∃ accept, ∀ a b : Value, op.evaluate a b = a.orders op.operation accept b
  := by
  simp only [orderings, List.mem_cons, List.not_mem_nil, or_false] at h
  obtain rfl | rfl | rfl | rfl := h
  · exact ⟨_, fun _ _ => rfl⟩
  · exact ⟨_, fun _ _ => rfl⟩
  · exact ⟨_, fun _ _ => rfl⟩
  · exact ⟨_, fun _ _ => rfl⟩

theorem evaluate_lt_iff {a b : Value} :
  lt.evaluate a b = .ok (.boolean true) ↔ a.compare? b = some .lt
  := by
  change a.orders lt.operation (· == .lt) b = .ok (.boolean true) ↔ _
  by_cases h : a.isNumber = true ∧ b.isNumber = true
  · rw [Value.orders_of_numbers _ _ h.1 h.2]
    cases a.compare? b with
    | none => simp
    | some o => cases o <;> simp
  · rw [Value.orders_of_not_numbers _ _ h, Value.compare?, Value.numberPair_of_not_numbers h]
    simp [fail]

/-- The order of numbers is strict: no value is less than itself, no two values are less than each
other, and of three numbers in order the first is less than the last, whichever of them are integers
and whichever are doubles. -/
theorem lt_orders_strictly (a b c : Value) :
  lt.evaluate a a ≠ .ok (.boolean true)
    ∧ ¬ (lt.evaluate a b = .ok (.boolean true) ∧ lt.evaluate b a = .ok (.boolean true))
    ∧ (lt.evaluate a b = .ok (.boolean true) → lt.evaluate b c = .ok (.boolean true) →
      lt.evaluate a c = .ok (.boolean true))
  := by
  have hasymm : ∀ {v w : Value}, v.compare? w = some .lt → w.compare? v ≠ some .lt := by
    intro v w h
    rw [Value.compare?_swap v w, h]
    simp
  simp only [ne_eq, evaluate_lt_iff]
  exact ⟨fun h => hasymm h h, fun h => hasymm h.1 h.2, Value.lt_trans⟩

/-- The integer `2 ^ 53 + 1` is less than the double above it, which is less than the integer
`2 ^ 53 + 3`, although the double nearest to each of the integers is another one. -/
theorem lt_orders_strictly_of_mixed :
  ∃ a b c : Value,
    a = .integer 9007199254740993 ∧ b = .double 9007199254740994.0 ∧ c = .integer 9007199254740995
      ∧ lt.evaluate a b = .ok (.boolean true) ∧ lt.evaluate b c = .ok (.boolean true)
      ∧ lt.evaluate a c = .ok (.boolean true)
  := by
  have hab : lt.evaluate (.integer 9007199254740993) (.double 9007199254740994.0)
      = .ok (.boolean true) := by
    rw [evaluate_lt_iff]
    decide +kernel
  have hbc : lt.evaluate (.double 9007199254740994.0) (.integer 9007199254740995)
      = .ok (.boolean true) := by
    rw [evaluate_lt_iff]
    decide +kernel
  obtain ⟨-, -, htrans⟩ := lt_orders_strictly (.integer 9007199254740993)
    (.double 9007199254740994.0) (.integer 9007199254740995)
  exact ⟨_, _, _, rfl, rfl, rfl, hab, hbc, htrans hab hbc⟩

/-- The comparison operators agree with each other.  Equality always has an answer, and it is the
same from both sides.  The orderings have one exactly for two numbers, and then: the order from the
other side is the opposite one; two numbers that can be compared are less, equal or greater, just one
of these, and the orderings that include equality say so; everything is false of the double that is
not a number. -/
theorem comparisons_cohere (a b : Value) :
  (∃ e : Bool, eq.evaluate a b = .ok (.boolean e) ∧ ne.evaluate a b = .ok (.boolean !e)
      ∧ eq.evaluate b a = .ok (.boolean e) ∧ ne.evaluate b a = .ok (.boolean !e))
    ∧ (∀ op ∈ orderings, (∃ v, op.evaluate a b = .ok v)
      ↔ a.isNumber = true ∧ b.isNumber = true)
    ∧ (a.isNumber = true → b.isNumber = true →
      gt.evaluate a b = lt.evaluate b a ∧ ge.evaluate a b = le.evaluate b a
        ∧ (a.isNaN = false → b.isNaN = false →
          ∃ l e g : Bool, lt.evaluate a b = .ok (.boolean l) ∧ eq.evaluate a b = .ok (.boolean e)
            ∧ gt.evaluate a b = .ok (.boolean g) ∧ [l, e, g].count true = 1
            ∧ le.evaluate a b = .ok (.boolean (l || e)) ∧ ge.evaluate a b = .ok (.boolean (g || e)))
        ∧ (a.isNaN = true ∨ b.isNaN = true →
          ∀ op ∈ eq :: orderings, op.evaluate a b = .ok (.boolean false)))
  := by
  refine ⟨⟨a.equals b, rfl, rfl, ?_, ?_⟩, ?_, ?_⟩
  · rw [evaluate, a.equals_comm b]
  · rw [evaluate, a.equals_comm b]
  · intro op hop
    obtain ⟨accept, horders⟩ := exists_orders_of_mem hop
    rw [horders]
    constructor
    · rintro ⟨v, hv⟩
      by_contra h
      rw [Value.orders_of_not_numbers _ _ h] at hv
      cases hv
    · rintro ⟨ha, hb⟩
      exact ⟨_, Value.orders_of_numbers _ _ ha hb⟩
  · intro ha hb
    have hnone := Value.compare?_eq_none_iff ha hb
    simp only [orderings, List.forall_mem_cons, evaluate, Value.orders_of_numbers _ _ ha hb,
      Value.orders_of_numbers _ _ hb ha, Value.equals_of_numbers ha hb, a.compare?_swap b]
    refine ⟨?_, ?_, ?_, ?_⟩
    · cases a.compare? b with
      | none => rfl
      | some o => cases o <;> rfl
    · cases a.compare? b with
      | none => rfl
      | some o => cases o <;> rfl
    · intro hna hnb
      cases hcompare : a.compare? b with
      | none =>
          have hnan := hnone.mp hcompare
          rw [hna, hnb] at hnan
          simp at hnan
      | some o => cases o <;> exact ⟨_, _, _, rfl, rfl, rfl, rfl, rfl, rfl⟩
    · intro hnan
      rw [hnone.mpr hnan]
      simp

/-- The integer `2 ^ 53 + 1` and the double `2 ^ 53` are equal, so that neither is less than the
other; the integer is neither equal nor in any order to the double that is not a number. -/
theorem comparisons_cohere_of_rounded :
  lt.evaluate (.integer 9007199254740993) (.double 9007199254740992.0) = .ok (.boolean false)
    ∧ gt.evaluate (.integer 9007199254740993) (.double 9007199254740992.0) = .ok (.boolean false)
    ∧ le.evaluate (.integer 9007199254740993) (.double 9007199254740992.0) = .ok (.boolean true)
    ∧ ∀ op ∈ eq :: orderings,
      op.evaluate (.integer 9007199254740993) (.double Double.nan) = .ok (.boolean false)
  := by
  have heq : eq.evaluate (.integer 9007199254740993) (.double 9007199254740992.0)
      = .ok (.boolean true) := by decide +kernel
  obtain ⟨-, -, hnumbers⟩ := comparisons_cohere (.integer 9007199254740993)
    (.double 9007199254740992.0)
  obtain ⟨-, -, hcompared, -⟩ := hnumbers rfl rfl
  obtain ⟨l, e, g, hl, he, hg, hcount, hle, -⟩ := hcompared rfl (by decide +kernel)
  obtain rfl : true = e := by simpa [heq] using he
  have honly : ∀ l g : Bool, [l, true, g].count true = 1 → l = false ∧ g = false := by decide
  obtain ⟨rfl, rfl⟩ := honly l g hcount
  obtain ⟨-, -, hnumbers⟩ := comparisons_cohere (.integer 9007199254740993) (.double Double.nan)
  obtain ⟨-, -, -, hnan⟩ := hnumbers rfl rfl
  exact ⟨hl, hg, hle, hnan (.inr (by decide +kernel))⟩

end Operator

end Stencil
