import Stencil.Double.Text
import Stencil.Proofs.Double.Shortest

/-!
# How doubles are written

A finite double is written positionally, with digits on both sides of the decimal point, or with an
exponent (`text_of_isFinite`).  Which of the two it is depends on the shortest decimal, but comes down
to the double itself: the two are on the same side of one ten-thousandth and of ten to the sixteenth.

The text of an integer consists of digits, after a sign if it is negative, so that no double is
written like one (`text_ne_toString`).
-/

namespace Stencil

/-- There are only digits and signs in the text of an integer. -/
theorem Integer.mem_toString {n : ℤ} {c : Char} (h : c ∈ (toString n).toList) :
  c.isDigit = true ∨ c = '-'
  := by
  have hdigits : ∀ m : ℕ, c ∈ (Nat.repr m).toList → c.isDigit = true := by
    intro m hc
    rw [Nat.repr, String.toList_ofList] at hc
    exact Nat.isDigit_of_mem_toDigits (by decide) (by decide) hc
  rw [Int.toString_eq_repr] at h
  cases n with
  | ofNat m => exact .inl (hdigits m h)
  | negSucc m =>
      rw [Int.repr, String.toList_append, List.mem_append] at h
      rcases h with hsign | hc
      · exact .inr (List.mem_singleton.mp hsign)
      · exact .inl (hdigits _ hc)

namespace Double

/-! ### Numerals -/

/-- There are digits and nothing else. -/
def IsNumeral (text : List Char) : Prop := text ≠ [] ∧ ∀ c ∈ text, c.isDigit = true

theorem isNumeral_zero :
  IsNumeral ['0']
  := ⟨List.cons_ne_nil _ _, List.forall_mem_singleton.mpr (by decide)⟩

theorem isNumeral_toDigits (n : ℕ) :
  IsNumeral (Nat.toDigits 10 n)
  := ⟨Nat.toDigits_ne_nil, fun _ => Nat.isDigit_of_mem_toDigits (by decide) (by decide)⟩

theorem isDigit_of_mem_replicate {count : ℕ} {c : Char} (h : c ∈ List.replicate count '0') :
  c.isDigit = true
  := by
  rw [List.eq_of_mem_replicate h]
  decide

/-- Not all digits of a positive number are zeros. -/
theorem exists_mem_toDigits_ne {n : ℕ} (h : 0 < n) :
  ∃ c ∈ Nat.toDigits 10 n, c ≠ '0'
  := by
  induction n using Nat.strongRecOn with
  | _ n ih =>
      by_cases hn : n < 10
      · have hchar : ∀ m < 10, 0 < m → m.digitChar ≠ '0' := by decide
        rw [Nat.toDigits_of_lt_base hn]
        exact ⟨_, List.mem_singleton_self _, hchar n hn h⟩
      · obtain ⟨c, hmem, hc⟩ := ih (n / 10) (by omega) (by omega)
        rw [Nat.toDigits_of_base_le (by decide) (by omega)]
        exact ⟨c, List.mem_append_left _ hmem, hc⟩

theorem isNumeral_dropTrailingZeros {n : ℕ} (h : 0 < n) :
  IsNumeral (dropTrailingZeros (Nat.toDigits 10 n))
  := by
  obtain ⟨c, hmem, hc⟩ := exists_mem_toDigits_ne h
  have hdrop : dropTrailingZeros (Nat.toDigits 10 n)
      = (Nat.toDigits 10 n).rdropWhile (· = '0') := rfl
  rw [hdrop]
  constructor
  · rw [ne_eq, List.rdropWhile_eq_nil_iff]
    intro hzeros
    exact hc (of_decide_eq_true (hzeros c hmem))
  · intro d hd
    exact (isNumeral_toDigits n).2 d ((List.rdropWhile_prefix _ _).subset hd)

/-! ### The two forms -/

/-- There are digits on both sides of the decimal point. -/
def IsPositional (text : List Char) : Prop :=
  ∃ whole fraction, IsNumeral whole ∧ IsNumeral fraction ∧ text = whole ++ '.' :: fraction

/-- There is a digit, which may be followed by a fraction, and then an exponent. -/
def IsScientific (text : List Char) : Prop :=
  ∃ digit fraction, ∃ exponent : ℤ, digit.isDigit = true
    ∧ (fraction = [] ∨ ∃ digits, IsNumeral digits ∧ fraction = '.' :: digits)
    ∧ text = digit :: fraction ++ 'e' :: (toString exponent).toList

theorem isPositional_positional {digits : List Char} (h : IsNumeral digits) (point : ℤ) :
  IsPositional (positional digits point)
  := by
  obtain ⟨hne, hdigits⟩ := h
  rw [positional]
  split
  · have hfraction : IsNumeral (List.replicate (-point).toNat '0' ++ digits) :=
      ⟨List.append_ne_nil_of_right_ne_nil _ hne,
        List.forall_mem_append.mpr ⟨fun _ => isDigit_of_mem_replicate, hdigits⟩⟩
    exact ⟨['0'], _, isNumeral_zero, hfraction, rfl⟩
  · rename_i hpoint
    refine ⟨_, _, ⟨?_, ?_⟩, ?_, rfl⟩
    · apply List.append_ne_nil_of_left_ne_nil
      rw [ne_eq, List.take_eq_nil_iff]
      rintro (hzero | hnil)
      · omega
      · exact hne hnil
    · exact List.forall_mem_append.mpr
        ⟨fun c hc => hdigits c (List.mem_of_mem_take hc), fun _ => isDigit_of_mem_replicate⟩
    · split
      · exact isNumeral_zero
      · rename_i hfraction
        exact ⟨hfraction, fun c hc => hdigits c (List.mem_of_mem_drop hc)⟩

theorem isScientific_scientific {digits : List Char} (h : IsNumeral digits) (point : ℤ) :
  IsScientific (scientific textStyle.exponentMark digits point)
  := by
  obtain ⟨hne, hdigits⟩ := h
  obtain ⟨digit, rest, rfl⟩ := List.exists_cons_of_ne_nil hne
  obtain ⟨hdigit, hrest⟩ := List.forall_mem_cons.mp hdigits
  refine ⟨digit, if rest = [] then [] else '.' :: rest, point - 1, hdigit, ?_, ?_⟩
  · split
    · exact .inl rfl
    · rename_i hrestne
      exact .inr ⟨rest, ⟨hrestne, hrest⟩, rfl⟩
  · rw [scientific, List.append_assoc]
    rfl

theorem mem_of_isPositional {text : List Char} (h : IsPositional text) {c : Char} (hc : c ∈ text) :
  c.isDigit = true ∨ c ∈ ['-', '.', 'e']
  := by
  obtain ⟨whole, fraction, ⟨-, hwhole⟩, ⟨-, hfraction⟩, rfl⟩ := h
  rcases List.mem_append.mp hc with hmem | hmem
  · exact .inl (hwhole c hmem)
  · rcases List.mem_cons.mp hmem with rfl | hmem
    · exact .inr (by decide)
    · exact .inl (hfraction c hmem)

theorem mem_of_isScientific {text : List Char} (h : IsScientific text) {c : Char} (hc : c ∈ text) :
  c.isDigit = true ∨ c ∈ ['-', '.', 'e']
  := by
  obtain ⟨digit, fraction, exponent, hdigit, hfraction, rfl⟩ := h
  rw [List.cons_append, List.mem_cons, List.mem_append, List.mem_cons] at hc
  rcases hc with rfl | hmem | rfl | hmem
  · exact .inl hdigit
  · rcases hfraction with rfl | ⟨digits, ⟨-, hdigits⟩, rfl⟩
    · cases hmem
    · rcases List.mem_cons.mp hmem with rfl | hmem
      · exact .inr (by decide)
      · exact .inl (hdigits c hmem)
  · exact .inr (by decide)
  · rcases Integer.mem_toString hmem with hdigit | rfl
    · exact .inl hdigit
    · exact .inr (by decide)

/-! ### Which form is taken -/

/-- The number of digits before the decimal point tells how great a decimal is. -/
theorem length_add_le_iff {x : Decimal} (h : 0 < x.digits) (p : ℤ) :
  (Nat.toDigits 10 x.digits).length + x.exponent ≤ p ↔ x.value < 10 ^ p
  := by
  have hten : (0 : ℚ) < 10 ^ x.exponent := by positivity
  have hpow : (10 : ℚ) ^ p = 10 ^ (p - x.exponent) * 10 ^ x.exponent := by
    rw [← zpow_add₀ (by norm_num), sub_add_cancel]
  rw [Decimal.value, hpow, mul_lt_mul_iff_of_pos_right hten]
  rcases lt_or_ge 0 (p - x.exponent) with hpos | hneg
  · obtain ⟨k, hk⟩ := Int.eq_ofNat_of_zero_le hpos.le
    have hdigits : (x.digits : ℚ) < 10 ^ k ↔ x.digits < 10 ^ k := by norm_cast
    rw [hk, zpow_natCast, hdigits, ← Nat.length_toDigits_le_iff (by decide) (by omega)]
    omega
  · have hlength : 0 < (Nat.toDigits 10 x.digits).length := Nat.length_toDigits_pos
    have hle : (10 : ℚ) ^ (p - x.exponent) ≤ 1 := zpow_le_one_of_nonpos₀ (by norm_num) hneg
    have hdigits : (1 : ℚ) ≤ x.digits := Nat.one_le_cast.mpr h
    apply iff_of_false
    · omega
    · linarith

/-- A decimal is written positionally from one ten-thousandth to below ten to the sixteenth. -/
theorem text_decimal {x : Decimal} (h : 0 < x.digits) :
  (1 / 10 ^ 4 ≤ x.value ∧ x.value < 10 ^ 16 → IsPositional (x.text textStyle))
    ∧ (¬ (1 / 10 ^ 4 ≤ x.value ∧ x.value < 10 ^ 16) → IsScientific (x.text textStyle))
  := by
  have hnumeral := isNumeral_dropTrailingZeros h
  have hleast : textStyle.leastPoint ≤ (Nat.toDigits 10 x.digits).length + x.exponent
      ↔ 1 / 10 ^ 4 ≤ x.value := by
    have hpoint : textStyle.leastPoint = -3 := rfl
    have hlimit : (10 : ℚ) ^ (-4 : ℤ) = 1 / 10 ^ 4 := by norm_num
    rw [← hlimit, ← not_lt (a := x.value), ← length_add_le_iff h, hpoint]
    omega
  have hgreatest : (Nat.toDigits 10 x.digits).length + x.exponent ≤ textStyle.greatestPoint
      ↔ x.value < 10 ^ 16 := length_add_le_iff h 16
  rw [← hleast, ← hgreatest, Decimal.text]
  constructor
  · intro hmoderate
    rw [if_pos hmoderate]
    exact isPositional_positional hnumeral _
  · intro hnot
    rw [if_neg hnot]
    exact isScientific_scientific hnumeral _

/-- The number is zero, or its size is from one ten-thousandth to below ten to the sixteenth. -/
def IsModerate (q : ℚ) : Prop := q = 0 ∨ 1 / 10 ^ 4 ≤ |q| ∧ |q| < 10 ^ 16

theorem digits_shortest_pos {bits : ℕ} (h : 0 < bits) :
  0 < (shortest bits).digits
  := by
  have hunits : 0 < unitsOfBits bits := Nat.zero_lt_of_lt (strictMono_unitsOfBits h)
  have hlo : (0 : ℚ) < (Interval.ofBits bits).lo := Nat.cast_pos.mpr (Nat.add_pos_right _ hunits)
  obtain ⟨hlower, -⟩ := (holds_shortest h).le
  by_contra hnot
  rw [Decimal.value, Nat.eq_zero_of_not_pos hnot, Nat.cast_zero, zero_mul, mul_zero] at hlower
  exact absurd hlower (not_le.mpr hlo)

theorem abs_value (d : Float) :
  |value d| = unitsOfBits (magnitudeBits d) / one
  := by
  have hunits : |units d| = unitsOfBits (magnitudeBits d) := by
    rw [Int.abs_eq_natAbs, natAbs_units, magnitude]
  rw [value, abs_div, Nat.abs_cast, ← Int.cast_abs, hunits, Int.cast_natCast]

/-- A finite double without its sign is written positionally if it is of moderate size, and otherwise
with an exponent. -/
theorem magnitudeText_magnitudeBits (d : Float) :
  (IsModerate (value d) → IsPositional (magnitudeText (magnitudeBits d)))
    ∧ (¬ IsModerate (value d) → IsScientific (magnitudeText (magnitudeBits d)))
  := by
  rw [IsModerate, ← abs_eq_zero, abs_value, magnitudeText]
  generalize magnitudeBits d = bits
  by_cases hbits : bits = 0
  · have hzero : (unitsOfBits bits / one : ℚ) = 0 := by
      rw [hbits, unitsOfBits_of_lt (by decide), Nat.cast_zero, zero_div]
    rw [if_pos hbits]
    exact ⟨fun _ => ⟨['0'], ['0'], isNumeral_zero, isNumeral_zero, rfl⟩,
      fun hnot => absurd (.inl hzero) hnot⟩
  · have hpos := Nat.pos_of_ne_zero hbits
    have hunits : 0 < unitsOfBits bits := Nat.zero_lt_of_lt (strictMono_unitsOfBits hpos)
    have hne : (unitsOfBits bits / one : ℚ) ≠ 0 :=
      div_ne_zero (Nat.cast_ne_zero.mpr hunits.ne') (Nat.cast_ne_zero.mpr one_pos.ne')
    have htext := text_decimal (digits_shortest_pos hpos)
    rw [ten_thousandth_le_shortest_iff hpos, ← not_le, ten_pow_le_shortest_iff hpos, not_le] at htext
    rw [if_neg hbits, or_iff_right hne]
    exact htext

/-! ### Texts of doubles -/

variable {d : Float}

theorem text_of_isFinite (h : isFinite d = true) :
  (text d).toList = (if isNegative d then ['-'] else []) ++ magnitudeText (magnitudeBits d)
  := by
  have hnumber : ¬ isNaN d = true := by
    rw [isFinite, decide_eq_true_eq] at h
    rw [isNaN, decide_eq_true_eq]
    omega
  rw [text, if_neg hnumber, if_pos h, String.toList_ofList]
  split <;> rfl

theorem text_of_not_isFinite (h : isFinite d = false) :
  text d = "NaN" ∨ text d = "inf" ∨ text d = "-inf"
  := by
  rw [text]
  split
  · exact .inl rfl
  · simp only [h, Bool.false_eq_true, if_false]
    split
    · exact .inr (.inr rfl)
    · exact .inr (.inl rfl)

/-- The characters that finite doubles are written with. -/
theorem mem_text_of_isFinite (h : isFinite d = true) {c : Char} (hc : c ∈ (text d).toList) :
  c.isDigit = true ∨ c ∈ ['-', '.', 'e']
  := by
  obtain ⟨hpositional, hscientific⟩ := magnitudeText_magnitudeBits d
  rw [text_of_isFinite h, List.mem_append] at hc
  rcases hc with hsign | hmem
  · split at hsign
    · obtain rfl := List.mem_singleton.mp hsign
      exact .inr (by decide)
    · cases hsign
  · by_cases hmoderate : IsModerate (value d)
    · exact mem_of_isPositional (hpositional hmoderate) hmem
    · exact mem_of_isScientific (hscientific hmoderate) hmem

/-- A finite double is told from an integer by its decimal point, or else by its exponent. -/
theorem mark_mem_text (h : isFinite d = true) :
  '.' ∈ (text d).toList ∨ 'e' ∈ (text d).toList
  := by
  obtain ⟨hpositional, hscientific⟩ := magnitudeText_magnitudeBits d
  rw [text_of_isFinite h, List.mem_append, List.mem_append]
  by_cases hmoderate : IsModerate (value d)
  · obtain ⟨whole, fraction, -, -, htext⟩ := hpositional hmoderate
    rw [htext]
    exact .inl (.inr (List.mem_append_right _ List.mem_cons_self))
  · obtain ⟨digit, fraction, exponent, -, -, htext⟩ := hscientific hmoderate
    rw [htext]
    exact .inr (.inr (List.mem_append_right _ List.mem_cons_self))

/-- No double is written like an integer, of whatever size. -/
theorem text_ne_toString (d : Float) (n : ℤ) :
  text d ≠ toString n
  := by
  intro heq
  have hnot : ∀ c ∈ (text d).toList, c.isDigit = true ∨ c = '-' := by
    rw [heq]
    exact fun c => Integer.mem_toString
  cases hfinite : isFinite d with
  | true =>
      rcases mark_mem_text hfinite with hmark | hmark
      · exact absurd (hnot _ hmark) (by decide)
      · exact absurd (hnot _ hmark) (by decide)
  | false =>
      rcases text_of_not_isFinite hfinite with htext | htext | htext
      · rw [htext] at hnot
        exact absurd (hnot 'N' (by decide)) (by decide)
      · rw [htext] at hnot
        exact absurd (hnot 'i' (by decide)) (by decide)
      · rw [htext] at hnot
        exact absurd (hnot 'i' (by decide)) (by decide)

end Double

end Stencil
