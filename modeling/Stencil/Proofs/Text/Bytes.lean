import Mathlib.Algebra.Ring.Nat
import Stencil.Text.Blank
import Stencil.Text.Case
import Stencil.Text.Copies
import Stencil.Text.Occurrence

/-!
# The bytes of a text

A text takes the bytes of its characters in UTF-8.  Trimming never lengthens a text, copies
take as many bytes as there are copies of the text, and replacing the occurrences of a
pattern changes the bytes by those of the occurrences (`bytes_replace`): the pieces between
the occurrences, joined by the pattern, are the text itself (`intercalate_cut`).

Mapping the case may lengthen a text, up to three times (`bytes_lower_le`,
`bytes_upper_le`).  The capital `İ` has a longer lowercase form, and `ΐ` has an uppercase
form of three times its bytes.
-/

namespace Stencil.Text

/-- How many bytes a text takes. -/
def bytes (text : List Char) : Nat := (text.map Char.utf8Size).sum

@[simp]
theorem bytes_nil :
  bytes [] = 0
  := rfl

@[simp]
theorem bytes_cons (c : Char) (text : List Char) :
  bytes (c :: text) = c.utf8Size + bytes text
  := by simp [bytes]

@[simp]
theorem bytes_append (s t : List Char) :
  bytes (s ++ t) = bytes s + bytes t
  := by simp [bytes]

@[simp]
theorem bytes_reverse (text : List Char) :
  bytes text.reverse = bytes text
  := by simp [bytes, List.map_reverse]

theorem utf8ByteSize_ofList (text : List Char) :
  (String.ofList text).utf8ByteSize = bytes text
  := by
  induction text with
  | nil => simp
  | cons c rest ih =>
      have hsplit : String.ofList (c :: rest) = String.singleton c ++ String.ofList rest := by
        rw [String.singleton_eq_ofList, ← String.ofList_append, List.singleton_append]
      rw [hsplit, String.utf8ByteSize_append, String.utf8ByteSize_singleton, ih, bytes_cons]

theorem utf8ByteSize_eq_bytes (s : String) :
  s.utf8ByteSize = bytes s.toList
  := by rw [← utf8ByteSize_ofList, String.ofList_toList]

theorem bytes_le_of_sublist {s t : List Char} (h : s.Sublist t) :
  bytes s ≤ bytes t
  := by
  induction h with
  | slnil => exact Nat.le_refl 0
  | cons c _ ih =>
      rw [bytes_cons]
      omega
  | cons_cons c _ ih =>
      rw [bytes_cons, bytes_cons]
      omega

/-! ### Trimming and copying -/

theorem bytes_trim_le (text : List Char) :
  bytes (trim text) ≤ bytes text
  := by
  have hdrop : ∀ t : List Char, bytes (t.dropWhile isBlank) ≤ bytes t := fun t =>
    bytes_le_of_sublist (List.dropWhile_sublist _)
  rw [trim, bytes_reverse]
  apply Nat.le_trans (hdrop _)
  rw [bytes_reverse]
  apply hdrop

theorem bytes_flatten_replicate (count : Nat) (text : List Char) :
  bytes (List.replicate count text).flatten = bytes text * count
  := by
  induction count with
  | zero => simp
  | succ n ih =>
      rw [List.replicate_succ, List.flatten_cons, bytes_append, ih, Nat.mul_succ, Nat.add_comm]

theorem utf8ByteSize_copies (count : Nat) (text : String) :
  (copies count text).utf8ByteSize = text.utf8ByteSize * count
  := by
  rw [utf8ByteSize_eq_bytes, toList_copies, bytes_flatten_replicate, ← utf8ByteSize_eq_bytes]

/-! ### Replacing -/

theorem bytes_intercalate (pattern : List Char) {pieces : List (List Char)} (h : pieces ≠ []) :
  bytes (pattern.intercalate pieces)
    = (pieces.map bytes).sum + (pieces.length - 1) * bytes pattern
  := by
  induction pieces with
  | nil => contradiction
  | cons piece rest ih =>
      cases rest with
      | nil => simp
      | cons next more =>
          rw [List.intercalate_cons_of_ne_nil (List.cons_ne_nil _ _), bytes_append, bytes_append,
            ih (List.cons_ne_nil _ _)]
          simp only [List.map_cons, List.sum_cons, List.length_cons, Nat.add_sub_cancel,
            Nat.add_mul]
          omega

/-- The pieces joined by the pattern are the piece begun and the text after the occurrence
that is passed. -/
theorem intercalate_cutFrom {pattern : List Char} (h : pattern ≠ []) (skip : Nat)
    (piece text : List Char) :
  pattern.intercalate (cutFrom pattern skip piece [] text) = piece.reverse ++ text.drop skip
  := by
  induction text generalizing skip piece with
  | nil => simp [cutFrom]
  | cons c rest ih =>
      rw [cutFrom]
      split
      · rename_i hskip
        rw [ih, List.drop_cons hskip]
      · rename_i hskip
        obtain rfl : skip = 0 := by omega
        split
        · rename_i hprefix
          obtain ⟨more, hmore⟩ := List.isPrefixOf_iff_prefix.mp hprefix
          cases pattern with
          | nil => contradiction
          | cons p pattern =>
              obtain ⟨rfl, rfl⟩ := List.cons.inj hmore
              rw [cutFrom_eq, List.reverse_singleton, List.singleton_append,
                List.intercalate_cons_of_ne_nil (cutFrom_ne_nil _ _ _ _ _), ih]
              simp
        · rw [ih]
          simp

theorem cut_ne_nil (pattern text : List Char) :
  cut pattern text ≠ []
  := by
  rw [cut]
  split
  · apply List.cons_ne_nil
  · apply cutFrom_ne_nil

/-- The pieces of a text joined by the pattern are the text. -/
theorem intercalate_cut (pattern text : List Char) :
  pattern.intercalate (cut pattern text) = text
  := by
  rw [cut]
  split
  · rename_i hempty
    obtain rfl := List.isEmpty_iff.mp hempty
    have hflatten : ∀ pieces : List (List Char),
        ([] : List Char).intercalate pieces = pieces.flatten := by
      intro pieces
      induction pieces with
      | nil => rfl
      | cons piece rest ih =>
          cases rest with
          | nil => simp
          | cons next more => rw [List.intercalate_cons_cons, ih]; simp
    have hsingle : (text.map fun c => [c]).flatten = text := by
      induction text with
      | nil => rfl
      | cons c rest ih => simp [ih]
    rw [hflatten]
    simp [hsingle]
  · rename_i hpattern
    rw [intercalate_cutFrom (mt List.isEmpty_iff.mpr hpattern)]
    rfl

/-- Replacing takes the bytes of the occurrences away and adds those of the new text, once
for each occurrence. -/
theorem bytes_replace (pattern new text : List Char) :
  bytes (replace pattern new text) + occurrences pattern text * bytes pattern
    = bytes text + occurrences pattern text * bytes new
  := by
  have hne := cut_ne_nil pattern text
  have htext : bytes text
      = ((cut pattern text).map bytes).sum + occurrences pattern text * bytes pattern := by
    rw [occurrences, ← bytes_intercalate pattern hne, intercalate_cut]
  rw [replace, bytes_intercalate new hne, htext, occurrences]
  omega

/-! ### Mapping the case -/

theorem utf8Size_of_toNat_lt {c : Char} (h : c.toNat < 0x80) :
  c.utf8Size = 1
  := by
  have hle : c.val ≤ 127 := by
    rw [UInt32.le_iff_toNat_le]
    exact Nat.le_of_lt_succ h
  exact if_pos hle

theorem two_le_utf8Size {c : Char} (h : ¬ c.toNat < 0x80) :
  2 ≤ c.utf8Size
  := by
  have hlt : ¬ c.val ≤ 127 := by
    rw [UInt32.le_iff_toNat_le]
    intro hle
    exact h (Nat.lt_succ_of_le hle)
  rw [Char.utf8Size]
  simp only [if_neg (show ¬ c.val ≤ UInt32.ofNatLT 127 _ from hlt)]
  split
  · exact Nat.le_refl 2
  · split <;> decide

/-- A single character takes at most three times the bytes of one after ASCII. -/
theorem bytes_singleton_le (d : Char) {c : Char} (h : ¬ c.toNat < 0x80) :
  bytes [d] ≤ 3 * c.utf8Size
  := by
  have hd := d.utf8Size_le_four
  have hc := two_le_utf8Size h
  rw [bytes_cons, bytes_nil]
  omega

/-- The case of a character of ASCII is another one of ASCII. -/
theorem utf8Size_toLower_toUpper_of_lt :
  ∀ n < 0x80, (Char.ofNat n).toLower.utf8Size = 1 ∧ (Char.ofNat n).toUpper.utf8Size = 1
  := by decide

theorem bytes_longUpper_le :
  ∀ e ∈ longUpper, bytes (e.2.map Char.ofNat) ≤ 3 * (Char.ofNat e.1).utf8Size
  := by decide

theorem bytes_lowerChar_le (c : Char) :
  bytes (lowerChar c) ≤ 3 * c.utf8Size
  := by
  rw [lowerChar]
  split
  · rename_i hascii
    have hcase := (utf8Size_toLower_toUpper_of_lt c.toNat hascii).1
    rw [Char.ofNat_toNat] at hcase
    rw [bytes_cons, bytes_nil, hcase, utf8Size_of_toNat_lt hascii]
    decide
  · rename_i hascii
    split
    · have hlong : bytes ['i', '\u0307'] = 3 := by decide
      have hc := two_le_utf8Size hascii
      omega
    · apply bytes_singleton_le _ hascii

theorem bytes_upperChar_le (c : Char) :
  bytes (upperChar c) ≤ 3 * c.utf8Size
  := by
  rw [upperChar]
  split
  · rename_i hascii
    have hcase := (utf8Size_toLower_toUpper_of_lt c.toNat hascii).2
    rw [Char.ofNat_toNat] at hcase
    rw [bytes_cons, bytes_nil, hcase, utf8Size_of_toNat_lt hascii]
    decide
  · rename_i hascii
    split
    · rename_i codes hcodes
      obtain ⟨before, after, hsplit, -⟩ := List.lookup_eq_some_iff.mp hcodes
      have hle := bytes_longUpper_le (c.toNat, codes) (by simp [hsplit])
      rwa [Char.ofNat_toNat] at hle
    · apply bytes_singleton_le _ hascii

theorem bytes_lowerBetween_le (before : List Char) (c : Char) (after : List Char) :
  bytes (lowerBetween before c after) ≤ 3 * c.utf8Size
  := by
  rw [lowerBetween]
  split
  · rename_i hsigma
    subst hsigma
    split <;> decide
  · apply bytes_lowerChar_le

/-- The lowercase form of a text takes at most three times its bytes. -/
theorem bytes_lower_le (text : List Char) :
  bytes (lower text) ≤ 3 * bytes text
  := by
  have hfrom : ∀ before, bytes (lowerFrom before [] text) ≤ 3 * bytes text := by
    induction text with
    | nil =>
        intro before
        exact Nat.le_refl 0
    | cons c rest ih =>
        intro before
        have hc := bytes_lowerBetween_le before c rest
        have hrest := ih (c :: before)
        rw [lowerFrom, lowerFrom_eq, bytes_append, bytes_reverse, bytes_append, bytes_reverse,
          bytes_nil, bytes_cons]
        omega
  apply hfrom

/-- The uppercase form of a text takes at most three times its bytes. -/
theorem bytes_upper_le (text : List Char) :
  bytes (upper text) ≤ 3 * bytes text
  := by
  induction text with
  | nil => exact Nat.le_refl 0
  | cons c rest ih =>
      have hc := bytes_upperChar_le c
      rw [upper] at ih ⊢
      rw [List.flatMap_cons, bytes_append, bytes_cons]
      omega

end Stencil.Text
