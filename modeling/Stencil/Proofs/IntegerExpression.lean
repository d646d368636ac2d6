import Stencil.Context.Basic

/-!
# Expressions of integers

An expression that is built from integers with `+`, `-`, `*`, `//` and `%` has an exact value
among all integers, and it has operations, which are listed in the order in which they are
carried out.  If no divisor is zero and the exact values of all operations fit into 64 bits, then
the evaluation gives the exact value of the expression.  Otherwise it fails in the way of the
first operation that fails (`Context.evaluate_integerExpression`).

The quotient rounded down is worked out from the one rounded towards zero.  Where that has to be
corrected, it is small enough for the correction to fit (`Integer.fits_of_roundsUp`).
-/

namespace Stencil

/-! ### Quotients -/

namespace Integer

/-- A remainder other than zero has the sign of the dividend. -/
theorem tmod_neg_iff {a b : Int} (h : a.tmod b ≠ 0) :
  a.tmod b < 0 ↔ a < 0
  := by
  rcases Int.le_total 0 a with ha | ha
  · have := Int.tmod_nonneg b ha
    omega
  · have hneg := Int.tmod_nonneg b (Int.neg_nonneg_of_nonpos ha)
    rw [Int.neg_tmod] at hneg
    have hzero : a ≠ 0 := by
      rintro rfl
      exact h (Int.zero_tmod b)
    omega

/-- The quotient rounded down is the one rounded towards zero, or one less if there is a remainder
with another sign than the divisor. -/
theorem fdiv_eq_tdiv_sub {a b : Int} (hb : b ≠ 0) :
  a.fdiv b
    = if a.tmod b ≠ 0 ∧ (a.tmod b < 0 ↔ ¬ b < 0) then a.tdiv b - 1 else a.tdiv b
  := by
  by_cases hdvd : b ∣ a
  · have hexact := Int.tmod_eq_zero_of_dvd hdvd
    rw [Int.fdiv_eq_tdiv, if_pos hdvd]
    simp [hexact]
  · have hrest : a.tmod b ≠ 0 := fun h => hdvd (Int.dvd_iff_tmod_eq_zero.mpr h)
    have hsign := tmod_neg_iff hrest
    rw [Int.fdiv_eq_tdiv, if_neg hdvd]
    rcases Int.lt_or_gt_of_ne hb with hb | hb
    · rw [Int.sign_eq_neg_one_of_neg hb]
      grind
    · rw [Int.sign_eq_one_of_pos hb]
      grind

theorem roundsUp_iff {a b : Int64} :
  roundsUp (a % b) b = true
    ↔ a.toInt.tmod b.toInt ≠ 0 ∧ (a.toInt.tmod b.toInt < 0 ↔ ¬ b.toInt < 0)
  := by
  have hzero : a % b = 0 ↔ a.toInt.tmod b.toInt = 0 := by
    rw [← Int64.toInt_inj, Int64.toInt_mod]
    rfl
  have hrest : a % b < 0 ↔ a.toInt.tmod b.toInt < 0 := by
    rw [Int64.lt_iff_toInt_lt, Int64.toInt_mod]
    rfl
  have hdivisor : b < 0 ↔ b.toInt < 0 := by
    rw [Int64.lt_iff_toInt_lt]
    rfl
  simp only [roundsUp, Bool.and_eq_true, bne_iff_ne, ne_eq, hzero, hrest, hdivisor]
  by_cases hr : a.toInt.tmod b.toInt < 0 <;> by_cases hb : b.toInt < 0 <;> simp [hr, hb]

/-- A quotient that is rounded up is that of a divisor other than one and minus one, so that it
fits, and so does the number below it. -/
theorem fits_of_roundsUp {a b : Int64} (h : roundsUp (a % b) b = true) :
  Fits (a.toInt.tdiv b.toInt) ∧ Fits (a.toInt.tdiv b.toInt - 1)
  := by
  obtain ⟨hrest, -⟩ := roundsUp_iff.mp h
  have ha := fits_iff.mp (fits_toInt a)
  have hsmall : (a.toInt.tdiv b.toInt).natAbs ≤ a.toInt.natAbs / 2 := by
    rcases Nat.lt_or_ge b.toInt.natAbs 2 with hb | hb
    · have hunit : b.toInt = 0 ∨ b.toInt = 1 ∨ b.toInt = -1 := by omega
      rcases hunit with hb | hb | hb
      · rw [hb, Int.tdiv_zero]
        omega
      · rw [hb, Int.tmod_one] at hrest
        contradiction
      · rw [hb, Int.tmod_neg, Int.tmod_one] at hrest
        contradiction
    · rw [Int.natAbs_tdiv]
      apply Nat.div_le_div_left hb Nat.two_pos
  rw [fits_iff, fits_iff]
  omega

/-- The quotient of a divisor other than zero is rounded down, if it fits. -/
theorem floorDivide_eq {a b : Int64} (hb : b ≠ 0) :
  floorDivide a b = ofInt "floor division" (a.toInt.fdiv b.toInt)
  := by
  have hdivisor : b.toInt ≠ 0 := by
    intro h
    apply hb
    rw [← Int64.toInt_inj, h]
    rfl
  rw [floorDivide, if_neg hb, truncatedQuotient, fdiv_eq_tdiv_sub hdivisor]
  by_cases hup : roundsUp (a % b) b = true
  · obtain ⟨hfits, -⟩ := fits_of_roundsUp hup
    simp only [if_pos hup, if_pos (roundsUp_iff.mp hup)]
    rw [ofInt, if_pos hfits, Except.bind, toInt_ofInt_of_fits hfits]
  · simp only [if_neg hup, if_neg (fun h => hup (roundsUp_iff.mpr h))]
    rw [ofInt]
    split <;> rfl

/-- A remainder is no farther from zero than the dividend. -/
theorem fits_tmod (a b : Int64) :
  Fits (a.toInt.tmod b.toInt)
  := by
  have h := fits_toInt (a % b)
  rwa [Int64.toInt_mod] at h

end Integer

/-! ### Operations -/

/-- An operator that gives an integer for two integers. -/
inductive IntegerOperator where
  | add
  | sub
  | mul
  | floorDiv
  | mod
deriving DecidableEq

namespace IntegerOperator

/-- The operator of the language. -/
def operator : IntegerOperator → Operator
  | add => .add
  | sub => .sub
  | mul => .mul
  | floorDiv => .floorDiv
  | mod => .mod

/-- The meaning among all integers: the quotient is rounded down, and the remainder is that of
the quotient rounded towards zero. -/
def exact : IntegerOperator → Int → Int → Int
  | add, a, b => a + b
  | sub, a, b => a - b
  | mul, a, b => a * b
  | floorDiv, a, b => a.fdiv b
  | mod, a, b => a.tmod b

/-- Whether the right operand is a divisor. -/
def divides : IntegerOperator → Bool
  | floorDiv => true
  | mod => true
  | _ => false

end IntegerOperator

/-- An operator between two integers. -/
structure IntegerOperation where
  op : IntegerOperator
  left : Int
  right : Int

namespace IntegerOperation

/-- The exact value. -/
def exact (o : IntegerOperation) : Int := o.op.exact o.left o.right

/-- The divisor is zero, or the exact value does not fit into 64 bits. -/
def Fails (o : IntegerOperation) : Prop :=
  (o.op.divides = true ∧ o.right = 0) ∨ ¬ Integer.Fits o.exact

instance (o : IntegerOperation) : Decidable o.Fails := inferInstanceAs (Decidable (_ ∨ _))

/-- The fault of an operation that fails. -/
def fault (o : IntegerOperation) : Fault :=
  match o.op with
  | .add => .integerOverflow "addition"
  | .sub => .integerOverflow "subtraction"
  | .mul => .integerOverflow "multiplication"
  | .floorDiv => if o.right = 0 then .divisionByZero else .integerOverflow "floor division"
  | .mod => .moduloByZero

/-- What an operation among the integers of 64 bits gives: the exact value, or its fault. -/
def Gives (o : IntegerOperation) (r : Attempt Value) : Prop :=
  if o.Fails then r = fail o.fault
  else ∃ n : Int64, r = .ok (.integer n) ∧ n.toInt = o.exact

/-- An operation that computes its exact value and fails if it does not fit. -/
theorem gives_ofInt {o : IntegerOperation} {operation : String}
    (hdivisor : ¬ (o.op.divides = true ∧ o.right = 0))
    (hfault : o.fault = .integerOverflow operation) :
  o.Gives ((Integer.ofInt operation o.exact).map .integer)
  := by
  unfold Gives
  split
  · rename_i hfails
    have hfits : ¬ Integer.Fits o.exact := hfails.resolve_left hdivisor
    rw [Integer.ofInt, if_neg hfits, hfault]
    rfl
  · rename_i hsound
    have hfits : Integer.Fits o.exact := by
      by_cases hfits : Integer.Fits o.exact
      · exact hfits
      · exact absurd (.inr hfits) hsound
    rw [Integer.ofInt, if_pos hfits]
    exact ⟨_, rfl, Integer.toInt_ofInt_of_fits hfits⟩

/-- An operation whose divisor is zero. -/
theorem gives_fault {o : IntegerOperation} (hdivides : o.op.divides = true) (hzero : o.right = 0) :
  o.Gives (fail o.fault)
  := by
  rw [Gives, if_pos (.inl ⟨hdivides, hzero⟩)]

end IntegerOperation

/-- The operators of the language compute with integers of 64 bits as they should. -/
theorem IntegerOperator.gives_evaluate (op : IntegerOperator) (a b : Int64) :
  (IntegerOperation.mk op a.toInt b.toInt).Gives
    (op.operator.evaluate (.integer a) (.integer b))
  := by
  have hzero : b.toInt = 0 ↔ b = 0 := by
    rw [← Int64.toInt_inj]
    rfl
  cases op with
  | add => exact IntegerOperation.gives_ofInt nofun rfl
  | sub => exact IntegerOperation.gives_ofInt nofun rfl
  | mul => exact IntegerOperation.gives_ofInt nofun rfl
  | floorDiv =>
      have heval : Operator.floorDiv.evaluate (.integer a) (.integer b)
          = (Integer.floorDivide a b).map .integer :=
        rfl
      rw [operator, heval]
      by_cases hb : b = 0
      · rw [Integer.floorDivide, if_pos hb]
        have hfault : (IntegerOperation.mk floorDiv a.toInt b.toInt).fault = .divisionByZero :=
          if_pos (hzero.mpr hb)
        have hgives := IntegerOperation.gives_fault
          (o := ⟨floorDiv, a.toInt, b.toInt⟩) rfl (hzero.mpr hb)
        rw [hfault] at hgives
        exact hgives
      · rw [Integer.floorDivide_eq hb]
        apply IntegerOperation.gives_ofInt
        · rintro ⟨-, h⟩
          exact hb (hzero.mp h)
        · exact if_neg (fun h => hb (hzero.mp h))
  | mod =>
      have heval : Operator.mod.evaluate (.integer a) (.integer b)
          = (Integer.modulo a b).map .integer :=
        rfl
      rw [operator, heval, Integer.modulo]
      by_cases hb : b = 0
      · rw [if_pos hb]
        exact IntegerOperation.gives_fault rfl (hzero.mpr hb)
      · rw [if_neg hb, IntegerOperation.Gives, if_neg]
        · exact ⟨_, rfl, Integer.toInt_ofInt_of_fits (Integer.fits_tmod a b)⟩
        · rintro (⟨-, h⟩ | h)
          · exact hb (hzero.mp h)
          · exact h (Integer.fits_tmod a b)

/-! ### Expressions -/

/-- An expression of integers. -/
inductive IntegerExpression where
  | literal (n : Int64)
  | binary (op : IntegerOperator) (left right : IntegerExpression)

namespace IntegerExpression

/-- The tree of the expression. -/
def node : IntegerExpression → Node
  | literal n => .literal (.integer n)
  | binary op left right => .binary op.operator left.node right.node

/-- The exact value. -/
def exact : IntegerExpression → Int
  | literal n => n.toInt
  | binary op left right => op.exact left.exact right.exact

/-- The operations between exact values, in the order in which they are carried out: those of
the left operand, those of the right operand, and the one between the two. -/
def operations : IntegerExpression → List IntegerOperation
  | literal _ => []
  | binary op left right =>
      left.operations ++ right.operations ++ [⟨op, left.exact, right.exact⟩]

/-- The first operation that fails. -/
def firstFailing? (e : IntegerExpression) : Option IntegerOperation :=
  e.operations.find? fun o => o.Fails

variable (answer : Answer) (env : Environment)

/-- An operator goes on with its right operand when its left operand has given an integer. -/
theorem evaluate_binary {left : Node} {a : Int64}
    (hleft : left.evaluate answer env = (proceed (.integer a), env)) (op : IntegerOperator)
    (right : Node) :
  (Node.binary op.operator left right).evaluate answer env
    = proceeding (right.evaluate answer env) fun b env =>
      (.ofValue (op.operator.evaluate (.integer a) b), env)
  := by
  have hdecided : op.operator.decidedBy? = none := by cases op <;> rfl
  rw [Node.evaluate, hleft]
  simp only [proceeding, proceed, hdecided]

/-- The tree of an expression fails as the first operation does that fails, or no operation fails
and it gives the exact value. -/
theorem evaluate_node (e : IntegerExpression) :
  (∃ o, e.firstFailing? = some o ∧ e.node.evaluate answer env = (fail o.fault, env))
    ∨ e.firstFailing? = none
      ∧ ∃ n : Int64, e.node.evaluate answer env = (proceed (.integer n), env) ∧ n.toInt = e.exact
  := by
  induction e with
  | literal n =>
      right
      refine ⟨rfl, n, ?_, rfl⟩
      rw [node, Node.evaluate]
  | binary op left right ihleft ihright =>
      have hfirst : (binary op left right).firstFailing?
          = (left.firstFailing?.or right.firstFailing?).or
            ([⟨op, left.exact, right.exact⟩].find? fun o => o.Fails) := by
        rw [firstFailing?, operations, List.find?_append, List.find?_append]
        rfl
      obtain ⟨o, hfails, hleft⟩ | ⟨hnone, a, hleft, ha⟩ := ihleft
      · left
        refine ⟨o, ?_, ?_⟩
        · rw [hfirst, hfails, Option.some_or, Option.some_or]
        · rw [node, Node.evaluate, hleft]
          rfl
      rw [node, evaluate_binary answer env hleft, hfirst, hnone, Option.none_or]
      obtain ⟨o, hfails, hright⟩ | ⟨hnone', b, hright, hb⟩ := ihright
      · left
        refine ⟨o, ?_, ?_⟩
        · rw [hfails, Option.some_or]
        · rw [hright]
          rfl
      have hgives := op.gives_evaluate a b
      rw [ha, hb, IntegerOperation.Gives] at hgives
      rw [hright, hnone', Option.none_or]
      split at hgives
      · rename_i hfails
        left
        refine ⟨⟨op, left.exact, right.exact⟩, ?_, ?_⟩
        · simpa using hfails
        · simp only [proceeding, proceed, hgives]
          rfl
      · rename_i hsound
        obtain ⟨n, hn, hexact⟩ := hgives
        right
        refine ⟨?_, n, ?_, hexact⟩
        · simpa using hsound
        · simp only [proceeding, proceed, hn]
          rfl

end IntegerExpression

namespace Context

variable (c : Context)

/-- If no operation of an expression fails, then its evaluation gives its exact value, and
otherwise it fails as the first operation does that fails; the context stays as it is.  So the
remainder of the least integer by minus one is zero, and the quotient does not fit.  The
correction of a quotient that is rounded up always fits. -/
theorem evaluate_integerExpression (e : IntegerExpression) :
  ((∀ o ∈ e.operations, ¬ o.Fails) →
      ∃ n : Int64, c.evaluate e.node = (proceed (.integer n), c) ∧ n.toInt = e.exact)
    ∧ (∀ before o after, e.operations = before ++ o :: after → (∀ o' ∈ before, ¬ o'.Fails) →
      o.Fails → c.evaluate e.node = (fail o.fault, c))
    ∧ c.evaluate (.binary .mod (.literal (.integer Int64.minValue)) (.literal (.integer (-1))))
      = (proceed (.integer 0), c)
    ∧ c.evaluate
        (.binary .floorDiv (.literal (.integer Int64.minValue)) (.literal (.integer (-1))))
      = (fail (.integerOverflow "floor division"), c)
    ∧ ∀ a b quotient : Int64, Integer.truncatedQuotient a b = .ok quotient →
      Integer.roundsUp (a % b) b = true → Integer.Fits (quotient.toInt - 1)
  := by
  have h := e.evaluate_node c.answer c.environment
  and_intros
  · intro hsound
    obtain ⟨o, hfirst, -⟩ | ⟨-, n, hn, hexact⟩ := h
    · have hfails : o.Fails := by simpa using List.find?_some hfirst
      exact absurd hfails (hsound o (List.mem_of_find?_eq_some hfirst))
    · refine ⟨n, ?_, hexact⟩
      rw [evaluate, hn]
      rfl
  · intro before o after hsplit hbefore hfails
    have hfirst : e.firstFailing? = some o := by
      rw [IntegerExpression.firstFailing?, List.find?_eq_some_iff_append]
      refine ⟨by simpa using hfails, before, after, hsplit, ?_⟩
      simpa using hbefore
    obtain ⟨o', hfirst', hfail⟩ | ⟨hnone, -⟩ := h
    · obtain rfl : o = o' := Option.some.inj (hfirst.symm.trans hfirst')
      rw [evaluate, hfail]
      rfl
    · rw [hfirst] at hnone
      contradiction
  · rfl
  · rfl
  · intro a b quotient hquotient hup
    obtain ⟨-, hfits⟩ := Integer.fits_of_roundsUp hup
    rw [Integer.truncatedQuotient, Integer.ofInt_eq_ok_iff] at hquotient
    rwa [← hquotient]

/-- The quotient of a negative integer is rounded down, and the remainder is negative.  The first
operation that fails is the one to the left, although there is a division by zero. -/
theorem evaluate_integerExpression_of_negative :
  ∃ (c : Context) (e e' : IntegerExpression),
    e = .binary .sub (.binary .floorDiv (.literal (-7)) (.literal 2))
        (.binary .mod (.literal (-7)) (.literal 2))
      ∧ e' = .binary .floorDiv (.binary .add (.literal Int64.maxValue) (.literal 1))
        (.binary .mod (.literal 1) (.literal 0))
      ∧ c.evaluate e.node = (proceed (.integer (-3)), c)
      ∧ c.evaluate e'.node = (fail (.integerOverflow "addition"), c)
  := by
  let c := root .standard
  let e : IntegerExpression := .binary .sub (.binary .floorDiv (.literal (-7)) (.literal 2))
    (.binary .mod (.literal (-7)) (.literal 2))
  let e' : IntegerExpression := .binary .floorDiv
    (.binary .add (.literal Int64.maxValue) (.literal 1)) (.binary .mod (.literal 1) (.literal 0))
  have hsound : ∀ o ∈ e.operations, ¬ o.Fails := by decide
  have hsplit : e'.operations = [] ++ e'.operations.head (by decide) :: e'.operations.tail := rfl
  obtain ⟨hvalue, -⟩ := c.evaluate_integerExpression e
  obtain ⟨-, hfail, -⟩ := c.evaluate_integerExpression e'
  obtain ⟨n, hn, hexact⟩ := hvalue hsound
  obtain rfl : n = -3 := Int64.toInt_inj.mp hexact
  exact ⟨c, e, e', rfl, rfl, hn, hfail _ _ _ hsplit nofun (by decide)⟩

end Context

end Stencil
