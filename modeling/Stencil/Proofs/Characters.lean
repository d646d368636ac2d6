import Stencil.Proofs.Double.Exact
import Stencil.Value.Operation

/-!
# The characters of a string

A string is the sequence of its characters: it has as many of them as its length says, one for every
index below its length and none for any other, and added up in order they are the string again.
Adding two strings puts their sequences together.  A double is an index like the integer that it is,
if it is one (`Value.strings_are_sequences`).

The length is an integer of 64 bits.  A text with more characters than the greatest integer, which no
memory holds, has that integer as its length.
-/

namespace Stencil

namespace Value

/-- What comes of adding the characters of a string at the first positions to the empty string, one
after the other. -/
def addCharacters (v : Value) : (count : Nat) → Attempt Value
  | 0 => .ok empty
  | i + 1 => do
      let sum ← addCharacters v i
      let character ← v.charAt (integer (Int64.ofInt i))
      sum.add character

variable {s t : String} {i : Int64} {d : Float}

/-! ### Length -/

theorem exists_length (s : String) :
  ∃ n : Int64, (string s).length = .ok (integer n)
    ∧ n.toInt = min (s.length : ℤ) Int64.maxValue.toInt
  := by
  use Int64.ofInt (min s.length Int64.maxValue.toInt), rfl
  apply Integer.toInt_ofInt_of_fits
  have hlength := Int.natCast_nonneg s.length
  have hgreatest := Integer.fits_toInt Int64.maxValue
  rw [Integer.fits_iff] at hgreatest ⊢
  omega

/-! ### Characters at positions -/

theorem charAt_integer (s : String) (i : Int64) :
  (string s).charAt (integer i)
    = (if i < 0 then none else s.toList[i.toInt.toNat]?).elim
        (fail (.indexOutOfBounds i s.length)) fun c => .ok (string (String.singleton c))
  := by
  rw [← String.length_toList, charAt]
  generalize hc : (if i < 0 then none else s.toList[i.toInt.toNat]?) = c
  simp only [position, bind, Except.bind, hc]
  cases c <;> rfl

theorem charAt_of_getElem? {c : Char} (hi : 0 ≤ i.toInt) (hc : s.toList[i.toInt.toNat]? = some c) :
  (string s).charAt (integer i) = .ok (string (String.singleton c))
  := by
  have hsign : ¬ i < 0 := by
    rw [Int64.lt_iff_toInt_lt]
    exact Int.not_lt.mpr hi
  rw [charAt_integer, if_neg hsign, hc]
  rfl

theorem charAt_of_outside (h : ¬ (0 ≤ i.toInt ∧ i.toInt < s.length)) :
  (string s).charAt (integer i) = fail (.indexOutOfBounds i s.length)
  := by
  rw [charAt_integer]
  split
  · rfl
  · rename_i hsign
    rw [Int64.lt_iff_toInt_lt, Int64.toInt_zero] at hsign
    have hlength : s.toList.length ≤ i.toInt.toNat := by
      rw [String.length_toList]
      omega
    rw [List.getElem?_eq_none hlength]
    rfl

/-- There is a character at every index below the length. -/
theorem exists_charAt (hi : 0 ≤ i.toInt) (hlt : i.toInt < s.length) :
  ∃ c, s.toList[i.toInt.toNat]? = some c
    ∧ (string s).charAt (integer i) = .ok (string (String.singleton c))
  := by
  have hlength : i.toInt.toNat < s.toList.length := by
    rw [String.length_toList]
    omega
  have hc := List.getElem?_eq_getElem hlength
  use s.toList[i.toInt.toNat], hc, charAt_of_getElem? hi hc

/-! ### Adding -/

theorem add_string (s t : String) :
  (string s).add (string t) = .ok (string (s ++ t))
  := rfl

/-- The length of a sum is the sum of the lengths. -/
theorem exists_length_append (h : Integer.Fits (s.length + t.length)) :
  ∃ m n k : Int64, (string s).length = .ok (integer m) ∧ (string t).length = .ok (integer n)
    ∧ (string (s ++ t)).length = .ok (integer k) ∧ k.toInt = m.toInt + n.toInt
  := by
  obtain ⟨m, hs, hm⟩ := exists_length s
  obtain ⟨n, ht, hn⟩ := exists_length t
  obtain ⟨k, hst, hk⟩ := exists_length (s ++ t)
  use m, n, k, hs, ht, hst
  have hgreatest := h.2
  rw [String.length_append] at hk
  omega

/-- The characters of the first string come first. -/
theorem charAt_append_left (t : String) (hi : 0 ≤ i.toInt) (hlt : i.toInt < s.length) :
  (string (s ++ t)).charAt (integer i) = (string s).charAt (integer i)
  := by
  obtain ⟨c, hc, hchar⟩ := exists_charAt hi hlt
  rw [hchar]
  apply charAt_of_getElem? hi
  rw [String.toList_append, List.getElem?_append_left _, hc]
  rw [String.length_toList]
  omega

/-- The characters of the second string come after those of the first. -/
theorem charAt_append_right (hle : s.length ≤ i.toInt) (hlt : i.toInt < s.length + t.length) :
  (string (s ++ t)).charAt (integer i)
    = (string t).charAt (integer (Int64.ofInt (i.toInt - s.length)))
  := by
  have hindex : (Int64.ofInt (i.toInt - s.length)).toInt = i.toInt - s.length := by
    apply Integer.toInt_ofInt_of_fits
    have hi := Integer.fits_toInt i
    rw [Integer.fits_iff] at hi ⊢
    omega
  obtain ⟨c, hc, hchar⟩ := exists_charAt (s := t) (i := Int64.ofInt (i.toInt - s.length))
    (by omega) (by omega)
  rw [hchar]
  apply charAt_of_getElem? (by omega)
  rw [String.toList_append, List.getElem?_append_right, ← hc, hindex, String.length_toList]
  · congr 1
    omega
  · rw [String.length_toList]
    omega

/-- Added up, the first characters of a string are the beginning of the string. -/
theorem addCharacters_eq (hfits : Integer.Fits s.length) {count : Nat} (hle : count ≤ s.length) :
  (string s).addCharacters count = .ok (string (String.ofList (s.toList.take count)))
  := by
  induction count with
  | zero => rfl
  | succ i ih =>
      have hindex : (Int64.ofInt i).toInt = i := by
        apply Integer.toInt_ofInt_of_fits
        rw [Integer.fits_iff] at hfits ⊢
        omega
      obtain ⟨c, hc, hchar⟩ := exists_charAt (s := s) (i := Int64.ofInt i) (by omega) (by omega)
      rw [hindex, Int.toNat_natCast] at hc
      rw [addCharacters, ih (by omega), hchar]
      apply (add_string _ _).trans
      rw [List.take_add_one, hc, String.ofList_append, String.singleton_eq_ofList]
      rfl

/-! ### Doubles as indexes -/

theorem charAt_double (s : String) (d : Float) :
  (string s).charAt (double d)
    = if Double.isIntegral d then
        (Double.toInteger Double.truncate "index_by" d).bind fun n => (string s).charAt (integer n)
      else fail (.typeMismatch "index_by" "string" "double")
  := by
  rw [charAt, position]
  split <;> rfl

theorem charAt_of_value_eq {k : Int64} (hfinite : Double.isFinite d = true)
    (hk : Double.value d = k.toInt) :
  (string s).charAt (double d) = (string s).charAt (integer k)
  := by
  have hinteger : Double.toInteger Double.truncate "index_by" d = .ok k :=
    Double.toInteger_eq_ok_iff.mpr ⟨hfinite, Double.truncate_of_value hk⟩
  rw [charAt_double, if_pos (Double.isIntegral_iff.mpr ⟨hfinite, _, hk⟩), hinteger]
  rfl

theorem charAt_of_not_fits {k : ℤ} (hfinite : Double.isFinite d = true) (hk : Double.value d = k)
    (hfits : ¬ Integer.Fits k) :
  (string s).charAt (double d) = fail (.integerOverflow "index_by")
  := by
  have herror : Double.toInteger Double.truncate "index_by" d = fail (.integerOverflow "index_by") := by
    apply Double.toInteger_eq_error_iff.mpr
    right
    rw [Double.truncate_of_value hk]
    exact ⟨hfinite, hfits, rfl⟩
  rw [charAt_double, if_pos (Double.isIntegral_iff.mpr ⟨hfinite, _, hk⟩), herror]
  rfl

theorem charAt_of_not_integral (h : ¬ (Double.isFinite d = true ∧ ∃ k : ℤ, Double.value d = k)) :
  (string s).charAt (double d) = fail (.typeMismatch "index_by" "string" "double")
  := by rw [charAt_double, if_neg (mt Double.isIntegral_iff.mp h)]

/-! ### Strings as sequences -/

/-- A string is the sequence of its characters.  Its length is their number, and added up they are
the string again.  There is a character at every index from zero to below the length, and every other
integer is out of bounds.  In the sum of two strings the characters of the second one follow those
of the first.  A double that is an integer of 64 bits is the same index as this integer; greater and
smaller integers are an overflow, and all other doubles are of the wrong type. -/
theorem strings_are_sequences (s t : String) :
  (∃ n : Int64, (string s).length = .ok (integer n)
      ∧ n.toInt = min (s.length : ℤ) Int64.maxValue.toInt
      ∧ (Integer.Fits s.length →
        n.toInt = s.length ∧ (string s).addCharacters s.length = .ok (string s)))
    ∧ (∀ i : Int64,
      (0 ≤ i.toInt ∧ i.toInt < s.length →
        ∃ c, s.toList[i.toInt.toNat]? = some c
          ∧ (string s).charAt (integer i) = .ok (string (String.singleton c)))
      ∧ (¬ (0 ≤ i.toInt ∧ i.toInt < s.length) →
        (string s).charAt (integer i) = fail (.indexOutOfBounds i s.length)))
    ∧ (∃ v, (string s).add (string t) = .ok v
      ∧ (Integer.Fits (s.length + t.length) →
        ∃ m n k : Int64, (string s).length = .ok (integer m) ∧ (string t).length = .ok (integer n)
          ∧ v.length = .ok (integer k) ∧ k.toInt = m.toInt + n.toInt)
      ∧ ∀ i : Int64, 0 ≤ i.toInt → i.toInt < s.length + t.length →
        v.charAt (integer i)
          = if i.toInt < s.length then (string s).charAt (integer i)
            else (string t).charAt (integer (Int64.ofInt (i.toInt - s.length))))
    ∧ ∀ d : Float,
      (∀ k : ℤ, Double.isFinite d = true → Double.value d = k →
        (Integer.Fits k →
          (string s).charAt (double d) = (string s).charAt (integer (Int64.ofInt k)))
        ∧ (¬ Integer.Fits k → (string s).charAt (double d) = fail (.integerOverflow "index_by")))
      ∧ (¬ (Double.isFinite d = true ∧ ∃ k : ℤ, Double.value d = k) →
        (string s).charAt (double d) = fail (.typeMismatch "index_by" "string" "double"))
  := by
  refine ⟨?_, ?_, ?_, ?_⟩
  · obtain ⟨n, hlength, hn⟩ := exists_length s
    use n, hlength, hn
    intro hfits
    constructor
    · rw [hn]
      apply min_eq_left hfits.2
    · rw [addCharacters_eq hfits (Nat.le_refl _), ← String.length_toList, List.take_length,
        String.ofList_toList]
  · intro i
    constructor
    · rintro ⟨hi, hlt⟩
      apply exists_charAt hi hlt
    · apply charAt_of_outside
  · use string (s ++ t), add_string s t
    constructor
    · apply exists_length_append
    · intro i hi hlt
      split
      · rename_i hleft
        apply charAt_append_left t hi hleft
      · rename_i hright
        apply charAt_append_right (Int.not_lt.mp hright) hlt
  · intro d
    constructor
    · intro k hfinite hk
      constructor
      · intro hfits
        apply charAt_of_value_eq hfinite
        rw [hk, Integer.toInt_ofInt_of_fits hfits]
      · apply charAt_of_not_fits hfinite hk
    · apply charAt_of_not_integral

/-- Characters are counted, and not the bytes they take.  The negative zero is the first index, like
the integer zero. -/
theorem strings_are_sequences_of_accents :
  ∃ s t : String, s = String.ofList ['é', '€'] ∧ t = String.ofList ['a']
    ∧ Integer.Fits s.length ∧ (string s).addCharacters s.length = .ok (string s)
    ∧ (string (s ++ t)).charAt (integer 2) = .ok (string (String.ofList ['a']))
    ∧ (string s).charAt (integer 2) = fail (.indexOutOfBounds 2 2)
    ∧ (string s).charAt (double (-0.0)) = .ok (string (String.ofList ['é']))
    ∧ (string s).charAt (double 9223372036854775808.0) = fail (.integerOverflow "index_by")
    ∧ (string s).charAt (double 0.5) = fail (.typeMismatch "index_by" "string" "double")
  := by
  obtain ⟨⟨n, -, -, hsum⟩, hindex, ⟨v, hv, -, hadd⟩, hdouble⟩ :=
    strings_are_sequences (String.ofList ['é', '€']) (String.ofList ['a'])
  obtain rfl := Except.ok.inj (hv.symm.trans (add_string _ _))
  rw [String.length_ofList] at hsum hindex hadd
  have hfits : Integer.Fits (2 : ℕ) := by decide
  refine ⟨_, _, rfl, rfl, ?_, ?_, ?_, ?_, ?_, ?_, ?_⟩
  · rw [String.length_ofList]
    exact hfits
  · rw [String.length_ofList]
    exact (hsum hfits).2
  · rw [hadd 2 (by decide) (by decide), if_neg (by decide)]
    decide
  · exact (hindex 2).2 (by decide)
  · have hzero : Double.value (-0.0) = (0 : ℤ) :=
      Double.value_eq_intCast_iff.mpr (by decide +kernel)
    rw [((hdouble (-0.0)).1 0 (by decide) hzero).1 (by decide)]
    decide
  · have hlarge : Double.value 9223372036854775808.0 = (9223372036854775808 : ℤ) :=
      Double.value_eq_intCast_iff.mpr (by decide +kernel)
    exact ((hdouble _).1 _ (by decide) hlarge).2 (by decide)
  · apply (hdouble 0.5).2
    rw [← Double.isIntegral_iff]
    decide +kernel

end Value

end Stencil
