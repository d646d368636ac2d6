import Stencil.Double.Shortest
import Stencil.Proofs.Double.Exact
import Stencil.Proofs.Double.Nearest

/-!
# Shortest decimals round to their doubles

The shortest decimal of a positive double is one of the numbers that round to this double
(`holds_shortest`): each candidate is looked up in the interval of these numbers, and the last resort
is the double itself.  The intervals of two doubles have at most an end in common, and so a limit
inside of the interval of a double has the greater doubles and their decimals on one side, and the
smaller ones on the other (`le_shortest_iff`).

Intervals are measured in half units, as their ends lie halfway between doubles.
-/

namespace Stencil.Double

/-- The number that a decimal is. -/
def Decimal.value (x : Decimal) : ℚ := x.digits * 10 ^ x.exponent

/-! ### Intervals -/

namespace Interval

/-- The number lies in the interval. -/
def Holds (i : Interval) (q : ℚ) : Prop :=
  if i.closed then i.lo ≤ q ∧ q ≤ i.hi else i.lo < q ∧ q < i.hi

variable {i : Interval} {q : ℚ}

theorem contains_iff {x scale : ℕ} (hscale : 0 < scale) :
  i.contains x scale = true ↔ i.Holds (x / scale)
  := by
  have hpos : (0 : ℚ) < scale := Nat.cast_pos.mpr hscale
  rw [contains, Holds]
  split
  · rw [Bool.and_eq_true, decide_eq_true_eq, decide_eq_true_eq, le_div_iff₀ hpos, div_le_iff₀ hpos]
    norm_cast
  · rw [Bool.and_eq_true, decide_eq_true_eq, decide_eq_true_eq, lt_div_iff₀ hpos, div_lt_iff₀ hpos]
    norm_cast

theorem Holds.le (h : i.Holds q) :
  i.lo ≤ q ∧ q ≤ i.hi
  := by
  rw [Holds] at h
  split at h
  · exact h
  · exact ⟨h.1.le, h.2.le⟩

theorem holds_of_lt (hlo : i.lo < q) (hhi : q < i.hi) :
  i.Holds q
  := by
  rw [Holds]
  split
  · exact ⟨hlo.le, hhi.le⟩
  · exact ⟨hlo, hhi⟩

/-- A positive double lies inside of its interval. -/
theorem ofBits_lt {bits : ℕ} (h : 0 < bits) :
  ((ofBits bits).lo : ℚ) < 2 * unitsOfBits bits
    ∧ (2 * unitsOfBits bits : ℚ) < (ofBits bits).hi
  := by
  have hbelow : unitsOfBits (bits - 1) < unitsOfBits bits := strictMono_unitsOfBits (by omega)
  have habove : unitsOfBits bits < unitsOfBits (bits + 1) := strictMono_unitsOfBits (by omega)
  simp only [ofBits]
  norm_cast
  omega

/-- The interval of a double does not reach beyond those of the greater ones. -/
theorem hi_le_lo {bits other : ℕ} (h : bits < other) :
  ((ofBits bits).hi : ℚ) ≤ (ofBits other).lo
  := by
  have hbelow : unitsOfBits bits ≤ unitsOfBits (other - 1) :=
    strictMono_unitsOfBits.monotone (by omega)
  have habove : unitsOfBits (bits + 1) ≤ unitsOfBits other :=
    strictMono_unitsOfBits.monotone (by omega)
  simp only [ofBits]
  norm_cast
  omega

end Interval

/-! ### Decimals in intervals -/

theorem pow_toNat_div (e : ℤ) :
  (10 : ℚ) ^ e.toNat / 10 ^ (-e).toNat = 10 ^ e
  := by
  rcases le_total 0 e with he | he
  · obtain ⟨n, rfl⟩ := Int.eq_ofNat_of_zero_le he
    simp
  · obtain ⟨n, hn⟩ := Int.eq_ofNat_of_zero_le (neg_nonneg.mpr he)
    obtain rfl : e = -n := by omega
    simp

/-- A decimal that is found on a grid rounds to the double. -/
theorem holds_of_nearestOnGrid? {bits n : ℕ} {exponent : ℤ}
    (h : nearestOnGrid? bits exponent = some n) :
  (Interval.ofBits bits).Holds (2 * one * Decimal.value ⟨n, exponent⟩)
  := by
  have hcontains : (Interval.ofBits bits).contains
      (n * (2 * one * 10 ^ exponent.toNat)) (10 ^ (-exponent).toNat) = true := by
    rw [nearestOnGrid?] at h
    simp only [Nat.pow_eq] at h
    generalize 2 * one * 10 ^ exponent.toNat = step at h ⊢
    generalize 10 ^ (-exponent).toNat = scale at h ⊢
    split at h
    · rename_i hbelow habove
      obtain rfl := Option.some.inj h
      split
      · exact hbelow
      · exact habove
    · rename_i hbelow _
      obtain rfl := Option.some.inj h
      exact hbelow
    · rename_i _ habove
      obtain rfl := Option.some.inj h
      exact habove
    · cases h
  rw [Interval.contains_iff (Nat.pow_pos (by decide))] at hcontains
  convert hcontains using 1
  rw [Decimal.value, ← pow_toNat_div]
  push_cast
  ring

theorem two_pow_mul_value (n k : ℕ) :
  (Nat.pow 2 k : ℕ) * Decimal.value ⟨n * Nat.pow 5 k, -k⟩ = n
  := by
  have hten : (10 : ℚ) ^ k = 2 ^ k * 5 ^ k := by
    rw [← mul_pow]
    norm_num only
  rw [Decimal.value, zpow_neg, zpow_natCast, hten]
  simp only [Nat.pow_eq, Nat.cast_mul, Nat.cast_pow, Nat.cast_ofNat]
  field_simp

/-- The decimal of last resort is the double itself. -/
theorem one_mul_value_exact (bits : ℕ) :
  one * Decimal.value ⟨unitsOfBits bits * Nat.pow 5 1074, -1074⟩ = unitsOfBits bits
  := by
  unfold one
  generalize hk : (1074 : ℕ) = k
  have hk' : (1074 : ℤ) = k := by omega
  rw [hk']
  apply two_pow_mul_value

/-- The shortest decimal of a positive double rounds to it. -/
theorem holds_shortest {bits : ℕ} (h : 0 < bits) :
  (Interval.ofBits bits).Holds (2 * one * (shortest bits).value)
  := by
  rw [shortest]
  generalize hfound : List.findSome? _ (List.range 17) = found
  cases found with
  | none =>
      obtain ⟨hlo, hhi⟩ := Interval.ofBits_lt h
      rw [Option.getD_none, mul_assoc, one_mul_value_exact]
      exact Interval.holds_of_lt hlo hhi
  | some x =>
      obtain ⟨count, -, hcandidate⟩ := List.exists_of_findSome?_eq_some hfound
      obtain ⟨n, hn, rfl⟩ := Option.map_eq_some_iff.mp hcandidate
      exact holds_of_nearestOnGrid? hn

/-! ### Limits -/

/-- A limit inside of the interval of a double, which is above neither this double nor its decimal, is
above another double exactly if it is above the decimal of that one. -/
theorem le_shortest_iff {n k other : ℕ} (hk : 0 < k)
    (hlo : k * (Interval.ofBits other).lo < 2 * one * n)
    (hhi : 2 * one * n < k * (Interval.ofBits other).hi)
    (hother : n * one ≤ k * unitsOfBits other) (hshortest : n / k ≤ (shortest other).value)
    {bits : ℕ} (h : 0 < bits) :
  n / k ≤ (shortest bits).value ↔ (n / k : ℚ) ≤ unitsOfBits bits / one
  := by
  have hone : (0 : ℚ) < one := Nat.cast_pos.mpr one_pos
  have hk' : (0 : ℚ) < k := Nat.cast_pos.mpr hk
  obtain ⟨hlower, hupper⟩ := (holds_shortest h).le
  obtain ⟨hbelow, habove⟩ := Interval.ofBits_lt h
  generalize hlimit : (n / k : ℚ) = limit at hshortest ⊢
  have hlo' : ((Interval.ofBits other).lo : ℚ) < 2 * one * limit := by
    rw [← hlimit, ← mul_div_assoc, lt_div_iff₀ hk', mul_comm]
    exact_mod_cast hlo
  have hhi' : 2 * one * limit < (Interval.ofBits other).hi := by
    rw [← hlimit, ← mul_div_assoc, div_lt_iff₀ hk', mul_comm _ (k : ℚ)]
    exact_mod_cast hhi
  have hother' : limit * one ≤ unitsOfBits other := by
    rw [← hlimit, div_mul_eq_mul_div, div_le_iff₀ hk', mul_comm _ (k : ℚ)]
    exact_mod_cast hother
  rw [le_div_iff₀ hone]
  rcases Nat.lt_trichotomy bits other with hlt | rfl | hgt
  · have hle := Interval.hi_le_lo hlt
    apply iff_of_false
    · intro hnot
      have hscaled := mul_le_mul_of_nonneg_left hnot hone.le
      linarith
    · linarith
  · exact iff_of_true hshortest hother'
  · have hle := Interval.hi_le_lo hgt
    apply iff_of_true
    · apply le_of_mul_le_mul_left _ hone
      linarith
    · linarith

/-- The decimal of a double is at least one ten-thousandth exactly if the double is. -/
theorem ten_thousandth_le_shortest_iff {bits : ℕ} (h : 0 < bits) :
  1 / 10 ^ 4 ≤ (shortest bits).value ↔ (1 / 10 ^ 4 : ℚ) ≤ unitsOfBits bits / one
  := by
  -- The bits of the double that is nearest to one ten-thousandth.
  let other := 4547007122018943789
  have hshortest : shortest other = ⟨1, -4⟩ := by decide +kernel
  have hvalue : ((1 : ℕ) / (10 ^ 4 : ℕ) : ℚ) ≤ (shortest other).value := by
    rw [hshortest, Decimal.value]
    norm_num
  have hlimit := le_shortest_iff (n := 1) (k := 10 ^ 4) (by decide) (by decide +kernel)
    (by decide +kernel) (by decide +kernel) hvalue h
  push_cast at hlimit
  exact hlimit

/-- The decimal of a double is at least ten to the sixteenth exactly if the double is. -/
theorem ten_pow_le_shortest_iff {bits : ℕ} (h : 0 < bits) :
  10 ^ 16 ≤ (shortest bits).value ↔ (10 ^ 16 : ℚ) ≤ unitsOfBits bits / one
  := by
  -- The bits of ten to the sixteenth, which is a double.
  let other := 4846369599423283200
  have hshortest : shortest other = ⟨1, 16⟩ := by decide +kernel
  have hvalue : ((10 ^ 16 : ℕ) / (1 : ℕ) : ℚ) ≤ (shortest other).value := by
    rw [hshortest, Decimal.value]
    norm_num
  have hlimit := le_shortest_iff (n := 10 ^ 16) (k := 1) (by decide) (by decide +kernel)
    (by decide +kernel) (by decide +kernel) hvalue h
  push_cast at hlimit
  rw [div_one] at hlimit
  exact hlimit

end Stencil.Double
