import Stencil.Proofs.Comparison
import Stencil.Proofs.Double.Exact
import Stencil.Proofs.IntegerExpression

/-!
# How operators fail

`Operator.Faults` lists the ways in which an operator fails: what the operands have to be, and which
fault there is then.  An operator fails in one of these ways and in no other, and where none of them
applies it gives a value (`Operator.evaluate_eq_error_iff`).
-/

namespace Stencil

/-- The quotient of the least integer by minus one is the only one that does not fit. -/
theorem Integer.fits_fdiv_iff {a b : Int64} (hb : b ≠ 0) :
  Fits (a.toInt.fdiv b.toInt) ↔ ¬ (a = Int64.minValue ∧ b = -1)
  := by
  have ha := fits_iff.mp (fits_toInt a)
  have hleast : a = Int64.minValue ↔ a.toInt = -9223372036854775808 := Int64.toInt_inj.symm
  have hone : b = -1 ↔ b.toInt = -1 := Int64.toInt_inj.symm
  have hdivisor : b.toInt ≠ 0 := fun h => hb (Int64.toInt_inj.mp h)
  rw [hleast, hone, fits_iff]
  obtain hb | hb | hb : b.toInt = 1 ∨ b.toInt = -1 ∨ 2 ≤ b.toInt.natAbs := by omega
  · rw [hb, Int.fdiv_one]
    omega
  · rw [hb, Int.fdiv_neg Int.one_ne_zero, if_pos (Int.one_dvd _), Int.fdiv_one]
    omega
  · have hsmall : (a.toInt.tdiv b.toInt).natAbs ≤ a.toInt.natAbs / 2 := by
      rw [Int.natAbs_tdiv]
      apply Nat.div_le_div_left hb Nat.two_pos
    rw [fdiv_eq_tdiv_sub hdivisor]
    split <;> omega

/-! ### Operands -/

namespace Value

/-- A number as a double: of an integer, the double nearest to it. -/
def asDouble? : Value → Option Float
  | double d => some d
  | integer n => some (Double.ofInt n.toInt)
  | _ => none

/-- The numbers that cannot be divided by. -/
def zeros : List Value := [integer 0, double 0.0, double (-0.0)]

variable {a b : Value}

theorem eq_boolean_of_kind (h : a.kind = .boolean) :
  ∃ s, a = boolean s
  := by
  cases a with
  | boolean s => exact ⟨s, rfl⟩
  | string _ | double _ | integer _ => cases h

theorem truth_of_kind_ne (h : a.kind ≠ .boolean) :
  a.truth = fail (.unsupportedOperation "as_boolean" a.kindName)
  := by
  cases a with
  | boolean s => exact absurd rfl h
  | string _ | double _ | integer _ => rfl

/-- Two numbers stay integers only if both are. -/
theorem numberPair_eq_integers_iff {m n : Int64} :
  NumberPair.of? a b = some (.integers m n) ↔ a = integer m ∧ b = integer n
  := by cases a <;> cases b <;> simp [NumberPair.of?]

/-- Two numbers become doubles if one of them is one. -/
theorem numberPair_eq_doubles_iff {x y : Float} :
  NumberPair.of? a b = some (.doubles x y)
    ↔ (a.kind = .double ∨ b.kind = .double) ∧ a.asDouble? = some x ∧ b.asDouble? = some y
  := by cases a <;> cases b <;> simp [NumberPair.of?, kind, asDouble?]

/-- A number is zero as a double exactly if it is no divisor. -/
theorem isZero_iff_mem_zeros {y : Float} (h : b.asDouble? = some y) :
  Double.isZero y = true ↔ b ∈ zeros
  := by
  cases b with
  | string s => cases h
  | boolean s => cases h
  | double d =>
      obtain rfl := Option.some.inj h
      simp [Double.isZero_iff, zeros]
  | integer n =>
      obtain rfl := Option.some.inj h
      rw [Double.isZero_ofInt]
      have hzero : n.toInt = 0 ↔ n = 0 := Int64.toInt_inj (y := 0)
      simp [zeros, hzero]

end Value

/-! ### The ways to fail -/

namespace Operator

/-- The operators that need two numbers. -/
def numerical : List Operator := [sub, mul, div, floorDiv, mod] ++ orderings

/-- The faults that an operator has between two values. -/
inductive Faults : Operator → Value → Value → Fault → Prop
  | sum {m n : Int64} (h : ¬ Integer.Fits (m.toInt + n.toInt)) :
      Faults add (.integer m) (.integer n) (.integerOverflow "addition")
  | difference {m n : Int64} (h : ¬ Integer.Fits (m.toInt - n.toInt)) :
      Faults sub (.integer m) (.integer n) (.integerOverflow "subtraction")
  | product {m n : Int64} (h : ¬ Integer.Fits (m.toInt * n.toInt)) :
      Faults mul (.integer m) (.integer n) (.integerOverflow "multiplication")
  /-- The left operand is not a number, whatever the right one is. -/
  | unsupported {op : Operator} {a b : Value} (hop : op ∈ numerical) (ha : a.isNumber = false) :
      Faults op a b (.unsupportedOperation op.operation a.kindName)
  /-- Only the right operand is not a number. -/
  | mismatch {op : Operator} {a b : Value} (hop : op ∈ numerical) (ha : a.isNumber = true)
      (hb : b.isNumber = false) :
      Faults op a b (.typeMismatch op.operation a.kindName b.kindName)
  | remainder {m : Int64} : Faults mod (.integer m) (.integer 0) .moduloByZero
  | divisor {a b : Value} (ha : a.isNumber = true) (hb : b ∈ Value.zeros) :
      Faults floorDiv a b .divisionByZero
  | quotient :
      Faults floorDiv (.integer Int64.minValue) (.integer (-1)) (.integerOverflow "floor division")
  /-- The quotient of two numbers, one of them a double, is infinite or not a number. -/
  | infinite {a b : Value} {x y : Float} (hkind : a.kind = .double ∨ b.kind = .double)
      (ha : a.asDouble? = some x) (hb : b.asDouble? = some y) (hdivisor : b ∉ Value.zeros)
      (h : Double.isFinite (x / y) = false) :
      Faults floorDiv a b (.notANumber "floor division")
  /-- The quotient of two numbers, one of them a double, is finite and rounded down to an integer
  of more than 64 bits. -/
  | large {a b : Value} {x y : Float} (hkind : a.kind = .double ∨ b.kind = .double)
      (ha : a.asDouble? = some x) (hb : b.asDouble? = some y) (hdivisor : b ∉ Value.zeros)
      (hfinite : Double.isFinite (x / y) = true)
      (h : ⌊Double.value (x / y)⌋ < -2 ^ 63 ∨ 2 ^ 63 ≤ ⌊Double.value (x / y)⌋) :
      Faults floorDiv a b (.integerOverflow "floor division")
  /-- The left operand of a gate is not a boolean, whatever the right one is. -/
  | gateLeft {g : Gate} {a b : Value} (ha : a.kind ≠ .boolean) :
      Faults (gate g) a b (.unsupportedOperation "as_boolean" a.kindName)
  /-- Only the right operand of a gate is not a boolean, even if the gate does not look at it. -/
  | gateRight {g : Gate} {a b : Value} (ha : a.kind = .boolean) (hb : b.kind ≠ .boolean) :
      Faults (gate g) a b (.unsupportedOperation "as_boolean" b.kindName)

/-! ### The faults are those of the operators -/

variable {op : Operator} {a b : Value}

theorem evaluate_of_not_numbers (hop : op ∈ numerical)
    (h : ¬ (a.isNumber = true ∧ b.isNumber = true)) :
  op.evaluate a b = fail (Value.mismatch op.operation a b)
  := by
  obtain hop | hop := List.mem_append.mp hop
  · have hnone := Value.numberPair_of_not_numbers h
    simp only [List.mem_cons, List.not_mem_nil, or_false] at hop
    rcases hop with rfl | rfl | rfl | rfl | rfl
    all_goals
      rw [evaluate, Value.numbers, hnone]
      rfl
  · obtain ⟨accept, horders⟩ := exists_orders_of_mem hop
    rw [horders, Value.orders_of_not_numbers _ _ h]

/-- The quotient of doubles rounded down. -/
theorem evaluate_floorDiv_doubles {x y : Float}
    (h : NumberPair.of? a b = some (.doubles x y)) (hdivisor : b ∉ Value.zeros) :
  floorDiv.evaluate a b
    = (Double.toInteger Double.floor "floor division" (x / y)).map .integer
  := by
  obtain ⟨-, -, hb⟩ := Value.numberPair_eq_doubles_iff.mp h
  rw [evaluate, Value.numbers, h]
  exact if_neg (mt (Value.isZero_iff_mem_zeros hb).mp hdivisor)

theorem evaluate_floorDiv_zero (ha : a.isNumber = true) (hb : b ∈ Value.zeros) :
  floorDiv.evaluate a b = fail .divisionByZero
  := by
  have hnumber : b.isNumber = true := by
    simp only [Value.zeros, List.mem_cons, List.not_mem_nil, or_false] at hb
    rcases hb with rfl | rfl | rfl <;> rfl
  obtain ⟨pair, hpair⟩ := Value.exists_numberPair ha hnumber
  rw [evaluate, Value.numbers, hpair]
  cases pair with
  | integers m n =>
      obtain ⟨-, rfl⟩ := Value.numberPair_eq_integers_iff.mp hpair
      simp only [Value.zeros, List.mem_cons, List.not_mem_nil, or_false, reduceCtorEq,
        Value.integer.injEq] at hb
      rw [hb]
      rfl
  | doubles x y =>
      obtain ⟨-, -, hy⟩ := Value.numberPair_eq_doubles_iff.mp hpair
      exact if_pos ((Value.isZero_iff_mem_zeros hy).mpr hb)

theorem evaluate_gate (g : Gate) (a b : Value) :
  (gate g).evaluate a b = a.truth.bind fun s => b.truth.map fun t => .boolean (g.apply s t)
  := rfl

theorem evaluate_of_fails (op : IntegerOperator) {m n : Int64}
    (h : (IntegerOperation.mk op m.toInt n.toInt).Fails) :
  op.operator.evaluate (.integer m) (.integer n)
    = fail (IntegerOperation.mk op m.toInt n.toInt).fault
  := by
  have hgives := op.gives_evaluate m n
  rwa [IntegerOperation.Gives, if_pos h] at hgives

/-- Every fault in the list is one that the operator fails with. -/
theorem evaluate_of_faults {f : Fault} (h : op.Faults a b f) :
  op.evaluate a b = fail f
  := by
  cases h with
  | sum h => exact evaluate_of_fails .add (.inr h)
  | difference h => exact evaluate_of_fails .sub (.inr h)
  | product h => exact evaluate_of_fails .mul (.inr h)
  | unsupported hop ha =>
      rw [evaluate_of_not_numbers hop (by simp [ha]), Value.mismatch]
      simp [ha]
  | mismatch hop ha hb =>
      rw [evaluate_of_not_numbers hop (by simp [hb]), Value.mismatch]
      simp [ha]
  | remainder => rfl
  | divisor ha hb => exact evaluate_floorDiv_zero ha hb
  | quotient => rfl
  | infinite hkind ha hb hdivisor h =>
      rw [evaluate_floorDiv_doubles (Value.numberPair_eq_doubles_iff.mpr ⟨hkind, ha, hb⟩) hdivisor,
        Double.toInteger_eq_error_iff.mpr (.inl ⟨h, rfl⟩)]
      rfl
  | large hkind ha hb hdivisor hfinite h =>
      rw [evaluate_floorDiv_doubles (Value.numberPair_eq_doubles_iff.mpr ⟨hkind, ha, hb⟩) hdivisor,
        Double.toInteger_eq_error_iff.mpr (.inr ⟨hfinite, ?_, rfl⟩)]
      · rfl
      · rw [Integer.fits_iff, Double.floor_eq]
        omega
  | gateLeft ha =>
      rw [evaluate_gate, Value.truth_of_kind_ne ha]
      rfl
  | gateRight ha hb =>
      obtain ⟨s, rfl⟩ := Value.eq_boolean_of_kind ha
      rw [evaluate_gate, Value.truth_of_kind_ne hb]
      rfl

/-! ### There are no other faults -/

/-- An operator that gives an integer for two integers does so, or else there is a fault. -/
theorem faults_or_ok_of_integers (op : IntegerOperator) (m n : Int64) :
  (∃ f, op.operator.Faults (.integer m) (.integer n) f)
    ∨ ∃ v, op.operator.evaluate (.integer m) (.integer n) = .ok v
  := by
  have hgives := op.gives_evaluate m n
  unfold IntegerOperation.Gives at hgives
  split at hgives
  · rename_i hfails
    left
    cases op with
    | add => exact ⟨_, .sum (hfails.resolve_left (by simp [IntegerOperator.divides]))⟩
    | sub => exact ⟨_, .difference (hfails.resolve_left (by simp [IntegerOperator.divides]))⟩
    | mul => exact ⟨_, .product (hfails.resolve_left (by simp [IntegerOperator.divides]))⟩
    | floorDiv =>
        by_cases hzero : n = 0
        · exact ⟨_, .divisor rfl (by simp [hzero, Value.zeros])⟩
        · have hfits := hfails.resolve_left fun h => hzero (Int64.toInt_inj.mp h.2)
          obtain ⟨rfl, rfl⟩ := not_not.mp (mt (Integer.fits_fdiv_iff hzero).mpr hfits)
          exact ⟨_, .quotient⟩
    | mod =>
        obtain rfl : n = 0 := by
          apply Int64.toInt_inj.mp
          obtain ⟨-, hzero⟩ := hfails.resolve_right (not_not.mpr (Integer.fits_tmod m n))
          exact hzero
        exact ⟨_, .remainder⟩
  · obtain ⟨k, hk, -⟩ := hgives
    exact .inr ⟨_, hk⟩

/-- The quotient of two doubles is rounded down, or else there is a fault. -/
theorem faults_or_ok_of_quotient {x y : Float} (h : NumberPair.of? a b = some (.doubles x y)) :
  (∃ f, floorDiv.Faults a b f) ∨ ∃ v, floorDiv.evaluate a b = .ok v
  := by
  obtain ⟨hkind, ha, hb⟩ := Value.numberPair_eq_doubles_iff.mp h
  by_cases hdivisor : b ∈ Value.zeros
  · obtain ⟨hnumber, -⟩ := NumberPair.isSome_of?_iff.mp (Option.isSome_of_eq_some h)
    exact .inl ⟨_, .divisor hnumber hdivisor⟩
  rw [evaluate_floorDiv_doubles h hdivisor]
  cases hresult : Double.toInteger Double.floor "floor division" (x / y) with
  | ok n => exact .inr ⟨_, rfl⟩
  | error e =>
      left
      obtain ⟨hfinite, -⟩ | ⟨hfinite, hfits, -⟩ := Double.toInteger_eq_error_iff.mp hresult
      · exact ⟨_, .infinite hkind ha hb hdivisor hfinite⟩
      · refine ⟨_, .large hkind ha hb hdivisor hfinite ?_⟩
        rw [Integer.fits_iff, Double.floor_eq] at hfits
        omega

theorem faults_or_ok_of_gate (g : Gate) (a b : Value) :
  (∃ f, (gate g).Faults a b f) ∨ ∃ v, (gate g).evaluate a b = .ok v
  := by
  by_cases ha : a.kind = .boolean
  · by_cases hb : b.kind = .boolean
    · obtain ⟨s, rfl⟩ := Value.eq_boolean_of_kind ha
      obtain ⟨t, rfl⟩ := Value.eq_boolean_of_kind hb
      exact .inr ⟨_, rfl⟩
    · exact .inl ⟨_, .gateRight ha hb⟩
  · exact .inl ⟨_, .gateLeft ha⟩

/-- An operator for numbers has a fault if one of the operands is not a number. -/
theorem faults_of_not_numbers (hop : op ∈ numerical)
    (h : ¬ (a.isNumber = true ∧ b.isNumber = true)) :
  ∃ f, op.Faults a b f
  := by
  cases ha : a.isNumber with
  | false => exact ⟨_, .unsupported hop ha⟩
  | true => exact ⟨_, .mismatch hop ha (by simpa [ha] using h)⟩

/-- An operator has a fault between two values, or it gives a value. -/
theorem faults_or_ok (op : Operator) (a b : Value) :
  (∃ f, op.Faults a b f) ∨ ∃ v, op.evaluate a b = .ok v
  := by
  -- The operands have no common form, or they are integers, or they are doubles.
  cases hpair : NumberPair.of? a b with
  | none =>
      have h : ¬ (a.isNumber = true ∧ b.isNumber = true) := by
        simp [← NumberPair.isSome_of?_iff, hpair]
      cases op with
      | add =>
          right
          rw [evaluate, Value.add, hpair]
          exact ⟨_, rfl⟩
      | eq | ne => exact .inr ⟨_, rfl⟩
      | gate g => exact faults_or_ok_of_gate g a b
      | _ => exact .inl (faults_of_not_numbers (by decide) h)
  | some pair =>
      cases pair with
      | integers m n =>
          obtain ⟨rfl, rfl⟩ := Value.numberPair_eq_integers_iff.mp hpair
          cases op with
          | add => exact faults_or_ok_of_integers .add m n
          | sub => exact faults_or_ok_of_integers .sub m n
          | mul => exact faults_or_ok_of_integers .mul m n
          | floorDiv => exact faults_or_ok_of_integers .floorDiv m n
          | mod => exact faults_or_ok_of_integers .mod m n
          | gate g => exact faults_or_ok_of_gate g _ _
          | _ => exact .inr ⟨_, rfl⟩
      | doubles x y =>
          cases op with
          | floorDiv => exact faults_or_ok_of_quotient hpair
          | gate g => exact faults_or_ok_of_gate g a b
          | eq | ne => exact .inr ⟨_, rfl⟩
          | add =>
              right
              rw [evaluate, Value.add, hpair]
              exact ⟨_, rfl⟩
          | gt | lt | ge | le =>
              right
              rw [evaluate, Value.orders, Value.numbers, hpair]
              exact ⟨_, rfl⟩
          | sub | mul | div | mod =>
              right
              rw [evaluate, Value.numbers, hpair]
              exact ⟨_, rfl⟩

/-- An operator fails in one of the ways in the list, and otherwise it gives a value. -/
theorem evaluate_eq_error_iff (op : Operator) (a b : Value) (e : Failure) :
  op.evaluate a b = .error e ↔ ∃ f, op.Faults a b f ∧ e = ⟨f, []⟩
  := by
  constructor
  · intro herror
    obtain ⟨f, hf⟩ | ⟨v, hv⟩ := op.faults_or_ok a b
    · rw [evaluate_of_faults hf] at herror
      exact ⟨f, hf, (Except.error.inj herror).symm⟩
    · rw [hv] at herror
      cases herror
  · rintro ⟨f, hf, rfl⟩
    exact evaluate_of_faults hf

/-- The greatest integer is not a double; the double nearest to it is one more. -/
example :
  floorDiv.evaluate (.double 9223372036854775808.0) (.integer 1)
      = fail (.integerOverflow "floor division")
    ∧ floorDiv.evaluate (.double (-9223372036854775808.0)) (.integer 1)
      = .ok (.integer Int64.minValue)
  := by decide +kernel

end Operator

end Stencil
