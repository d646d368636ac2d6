import Stencil.Proofs.Double.Bits

/-!
# The double nearest to an integer

More bits stand for more units (`strictMono_unitsOfBits`), and rounding a number of units to bits
keeps the order (`monotone_bitsOfUnits`): a quotient is rounded to one of its two neighbours, and
between two powers of two all quotients have the same divisor.  So of two integers the greater
one does not become the smaller double (`units_ofInt_le`), although different integers may
become the same double.
-/

namespace Stencil.Double

/-! ### Bits and units -/

theorem unitsOfBits_of_lt {bits : Nat} (h : bits < fractions) :
  unitsOfBits bits = bits
  := if_pos h

/-- The units of bits with an exponent. -/
theorem unitsOfBits_of_le {bits : Nat} (h : fractions ≤ bits) :
  unitsOfBits bits = (fractions + bits % fractions) * 2 ^ (bits / fractions - 1)
  := by rw [unitsOfBits, if_neg (Nat.not_lt_of_le h), Nat.shiftLeft_eq]

/-- More bits stand for more units. -/
theorem strictMono_unitsOfBits :
  StrictMono unitsOfBits
  := by
  apply strictMono_nat_of_lt_succ
  intro bits
  rcases Nat.lt_trichotomy (bits + 1) fractions with hlt | heq | hgt
  · rw [unitsOfBits_of_lt hlt, unitsOfBits_of_lt (by omega)]
    omega
  · rw [unitsOfBits_of_lt (by omega), heq, unitsOfBits_of_le (Nat.le_refl _)]
    have hone : fractions / fractions - 1 = 0 := rfl
    rw [hone, Nat.mod_self, Nat.pow_zero]
    omega
  · have hexponent : 1 ≤ bits / fractions := Nat.div_pos (by omega) (by decide)
    rw [unitsOfBits_of_le (by omega), unitsOfBits_of_le (by omega)]
    by_cases hcarry : bits % fractions + 1 = fractions
    · -- The fraction is used up, and the next bits begin with the next exponent.
      have hmod : (bits + 1) % fractions = 0 := by
        rw [Nat.add_mod, Nat.mod_eq_of_lt (by decide : 1 < fractions), hcarry, Nat.mod_self]
      have hdiv : (bits + 1) / fractions - 1 = bits / fractions - 1 + 1 := by
        rw [Nat.succ_div_of_mod_eq_zero hmod]
        omega
      rw [hmod, hdiv, Nat.pow_succ, ← Nat.mul_assoc, Nat.mul_right_comm]
      apply Nat.mul_lt_mul_of_pos_right _ (Nat.two_pow_pos _)
      omega
    · have hlt := Nat.mod_lt bits (by decide : 0 < fractions)
      have hmod : (bits + 1) % fractions = bits % fractions + 1 := by
        rw [Nat.add_mod, Nat.mod_eq_of_lt (by decide : 1 < fractions)]
        apply Nat.mod_eq_of_lt
        omega
      have hdiv : (bits + 1) / fractions = bits / fractions :=
        Nat.succ_div_of_mod_ne_zero (by omega)
      rw [hmod, hdiv]
      apply Nat.mul_lt_mul_of_pos_right _ (Nat.two_pow_pos _)
      omega

/-! ### Rounding quotients -/

section Quotients

variable {n m d k : Nat}

/-- A quotient is rounded to one of its two neighbours. -/
theorem divRoundEven_eq_or :
  divRoundEven n d = n / d ∨ divRoundEven n d = n / d + 1
  := by
  rw [divRoundEven]
  split
  · exact .inr rfl
  · exact .inl rfl

theorem divRoundEven_le_divRoundEven (h : n ≤ m) :
  divRoundEven n d ≤ divRoundEven m d
  := by
  rcases Nat.lt_or_eq_of_le (Nat.div_le_div_right h : n / d ≤ m / d) with hlt | heq
  · rcases @divRoundEven_eq_or n d with hn | hn <;> rcases @divRoundEven_eq_or m d with hm | hm
      <;> omega
  · -- With the same quotient, the greater number has the greater rest.
    have hn := Nat.div_add_mod n d
    have hm := Nat.div_add_mod m d
    rw [heq] at hn
    simp only [divRoundEven, heq, Bool.or_eq_true, Bool.and_eq_true, beq_iff_eq, decide_eq_true_eq]
    split <;> split <;> omega

/-- Rounding does not pass an integer that the quotient does not pass. -/
theorem le_divRoundEven (hd : 0 < d) (h : k * d ≤ n) :
  k ≤ divRoundEven n d
  := by
  have hle : k ≤ n / d := (Nat.le_div_iff_mul_le hd).mpr h
  rcases @divRoundEven_eq_or n d with hn | hn <;> omega

theorem divRoundEven_le (hd : 0 < d) (h : n < k * d) :
  divRoundEven n d ≤ k
  := by
  have hlt : n / d < k := (Nat.div_lt_iff_lt_mul hd).mpr h
  rcases @divRoundEven_eq_or n d with hn | hn <;> omega

end Quotients

/-! ### Rounding numbers of units -/

/-- Rounding to bits keeps the order: between two powers of two all numbers have the same exponent,
and each power of two is rounded to itself. -/
theorem monotone_bitsOfUnits :
  Monotone bitsOfUnits
  := by
  intro n m h
  rcases Nat.eq_zero_or_pos n with rfl | hpos
  · exact Nat.zero_le _
  have hlog : n.log2 ≤ m.log2 :=
    (Nat.le_log2 (by omega)).mpr (Nat.le_trans (Nat.log2_self_le (by omega)) h)
  rw [bitsOfUnits, bitsOfUnits]
  suffices hle : (n.log2 - 52) * fractions + divRoundEven n (2 ^ (n.log2 - 52))
      ≤ (m.log2 - 52) * fractions + divRoundEven m (2 ^ (m.log2 - 52)) by
    change min _ _ ≤ min _ _
    exact Nat.le_min.mpr
      ⟨Nat.le_trans (Nat.min_le_left _ _) hle, Nat.min_le_right _ _⟩
  rcases Nat.lt_or_eq_of_le (Nat.sub_le_sub_right hlog 52) with hlt | heq
  · have hn : divRoundEven n (2 ^ (n.log2 - 52)) ≤ 2 * fractions := by
      apply divRoundEven_le (Nat.two_pow_pos _)
      have hfractions : 2 * fractions = 2 ^ 53 := rfl
      rw [hfractions, ← Nat.pow_add]
      apply Nat.lt_of_lt_of_le Nat.lt_log2_self
      apply Nat.pow_le_pow_right Nat.two_pos
      omega
    have hm : fractions ≤ divRoundEven m (2 ^ (m.log2 - 52)) := by
      apply le_divRoundEven (Nat.two_pow_pos _)
      have hfractions : fractions = 2 ^ 52 := rfl
      rw [hfractions, ← Nat.pow_add, Nat.add_sub_of_le (by omega)]
      apply Nat.log2_self_le
      omega
    have hexponents : (n.log2 - 52 + 1) * fractions ≤ (m.log2 - 52) * fractions :=
      Nat.mul_le_mul_right _ hlt
    rw [Nat.add_mul] at hexponents
    omega
  · rw [heq]
    apply Nat.add_le_add_left (divRoundEven_le_divRoundEven h)

/-- The units of the double nearest to a number of units. -/
theorem monotone_nearest :
  Monotone fun n => unitsOfBits (bitsOfUnits n)
  := strictMono_unitsOfBits.monotone.comp monotone_bitsOfUnits

/-! ### The doubles of integers -/

theorem units_ofInt (n : Int) :
  units (ofInt n)
    = if n < 0 then -(unitsOfBits (bitsOfUnits (n.natAbs * one)) : Int)
      else unitsOfBits (bitsOfUnits (n.natAbs * one))
  := by
  rw [ofInt, units_ofUnits]
  simp only [decide_eq_true_eq]

@[simp]
theorem isNaN_ofInt (n : Int) :
  isNaN (ofInt n) = false
  := isNaN_ofUnits _ _

/-- The double of the greater integer is at least the double of the other. -/
theorem units_ofInt_le {m n : Int} (h : m ≤ n) :
  units (ofInt m) ≤ units (ofInt n)
  := by
  have hnearest : ∀ a b : Int, a.natAbs ≤ b.natAbs →
      unitsOfBits (bitsOfUnits (a.natAbs * one)) ≤ unitsOfBits (bitsOfUnits (b.natAbs * one)) :=
    fun a b hab => monotone_nearest (Nat.mul_le_mul_right one hab)
  rw [units_ofInt, units_ofInt]
  split
  · split
    · have hle := hnearest n m (by omega)
      omega
    · omega
  · rw [if_neg (by omega)]
    have hle := hnearest m n (by omega)
    omega

/-- Only the integer zero becomes a zero. -/
theorem isZero_ofInt {n : Int} :
  isZero (ofInt n) = true ↔ n = 0
  := by
  rw [isZero, ofInt, magnitudeBits_ofUnits, beq_iff_eq]
  constructor
  · intro h
    by_contra hn
    have hone : one ≤ n.natAbs * one := Nat.le_mul_of_pos_left _ (by omega)
    have hbits : bitsOfUnits one = 1023 * fractions := by decide +kernel
    have hle := monotone_bitsOfUnits hone
    rw [h, hbits, fractions_eq] at hle
    omega
  · rintro rfl
    rw [Int.natAbs_zero, Nat.zero_mul]
    rfl

end Stencil.Double
