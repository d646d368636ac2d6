import Stencil.Proofs.Text.Bytes

/-!
# Where a pattern is found

The positions at which a pattern is found in a text, from left to right: the first one at which it
occurs, and from the end of that occurrence again the first one, and so on (`FoundFrom`).  The empty
pattern is found at every position, the end of the text among them.  Cutting a text finds a pattern
at these positions, so that they are counted by `occurrences`, and `replace` puts the new text in
their place (`exists_positions`).
-/

namespace Stencil.Text

/-- The pattern occurs at a position of the text. -/
def OccursAt (pattern text : List Char) (i : Nat) : Prop :=
  i ≤ text.length ∧ pattern <+: text.drop i

/-- The positions at which the pattern is found in the text, where the search begins at `start`.
After an occurrence it goes on at its end, or one character later if the pattern is empty. -/
inductive FoundFrom (pattern text : List Char) : (start : Nat) → (positions : List Nat) → Prop
  | none {start : Nat} (h : ∀ i, start ≤ i → ¬ OccursAt pattern text i) :
      FoundFrom pattern text start []
  | next {start i : Nat} {rest : List Nat} (hstart : start ≤ i) (hfound : OccursAt pattern text i)
      (hfirst : ∀ j, start ≤ j → j < i → ¬ OccursAt pattern text j)
      (hrest : FoundFrom pattern text (i + max 1 pattern.length) rest) :
      FoundFrom pattern text start (i :: rest)

/-- The text from `start` on, with `new` in place of the `width` characters at each of the
positions. -/
def substitute (width : Nat) (new text : List Char) : (start : Nat) → (positions : List Nat) →
    List Char
  | start, [] => text.drop start
  | start, i :: rest =>
      (text.drop start).take (i - start) ++ new ++ substitute width new text (i + width) rest

variable {pattern new text : List Char} {start : Nat} {positions : List Nat}

namespace FoundFrom

/-- The positions are determined. -/
theorem unique {positions' : List Nat} (h : FoundFrom pattern text start positions)
    (h' : FoundFrom pattern text start positions') :
  positions = positions'
  := by
  induction h generalizing positions' with
  | none h =>
      cases h' with
      | none h' => rfl
      | next hstart hfound hfirst hrest => exact absurd hfound (h _ hstart)
  | next hstart hfound hfirst hrest ih =>
      cases h' with
      | none h' => exact absurd hfound (h' _ hstart)
      | next hstart' hfound' hfirst' hrest' =>
          obtain rfl := Nat.le_antisymm (Nat.le_of_not_lt fun h => hfirst _ hstart' h hfound')
            (Nat.le_of_not_lt fun h => hfirst' _ hstart h hfound)
          rw [ih hrest']

/-- The pattern is found where the search begins. -/
theorem here (hfound : OccursAt pattern text start)
    (hrest : FoundFrom pattern text (start + max 1 pattern.length) positions) :
  FoundFrom pattern text start (start :: positions)
  := .next (Nat.le_refl start) hfound (fun _ hj hlt => absurd hj (Nat.not_le_of_lt hlt)) hrest

/-- The search passes a position at which the pattern does not occur. -/
theorem of_not_occursAt (hnot : ¬ OccursAt pattern text start)
    (h : FoundFrom pattern text (start + 1) positions) :
  FoundFrom pattern text start positions
  := by
  have hpassed : ∀ i, start ≤ i → ¬ start + 1 ≤ i → ¬ OccursAt pattern text i := by
    intro i hle hlt
    obtain rfl : i = start := by omega
    exact hnot
  cases h with
  | none h =>
      refine .none fun i hi => ?_
      by_cases hlt : start + 1 ≤ i
      · exact h i hlt
      · exact hpassed i hi hlt
  | next hstart hfound hfirst hrest =>
      refine .next (by omega) hfound (fun j hj hlt => ?_) hrest
      by_cases hle : start + 1 ≤ j
      · exact hfirst j hle hlt
      · exact hpassed j hj hle

end FoundFrom

/-- A position before the end of the text is that of a character, and the others come after it. -/
theorem of_drop_eq_cons {c : Char} {rest : List Char} (h : text.drop start = c :: rest) :
  start < text.length ∧ text.drop (start + 1) = rest
  := by
  constructor
  · by_contra hle
    rw [List.drop_eq_nil_of_le (Nat.le_of_not_lt hle)] at h
    cases h
  · rw [← List.drop_drop, h, List.drop_one, List.tail_cons]

/-- A character at which the search passes stays in the text. -/
theorem substitute_succ {c : Char} {rest : List Char} (width : Nat) (new : List Char)
    (hdrop : text.drop start = c :: rest) (h : FoundFrom pattern text (start + 1) positions) :
  substitute width new text start positions = c :: substitute width new text (start + 1) positions
  := by
  obtain ⟨-, hrest⟩ := of_drop_eq_cons hdrop
  cases h with
  | none h => rw [substitute, substitute, hdrop, hrest]
  | @next _ i rest' hstart hfound hfirst hnext =>
      obtain ⟨k, rfl⟩ := Nat.exists_eq_add_of_le hstart
      have hk : start + 1 + k - start = k + 1 := by omega
      rw [substitute, substitute, hdrop, hrest, hk, Nat.add_sub_cancel_left, List.take_succ_cons]
      simp

/-- A pattern that is not empty does not occur at the end of the text. -/
theorem not_occursAt_of_drop_eq_nil (hpattern : pattern ≠ []) (hdrop : text.drop start = []) :
  ∀ i, start ≤ i → ¬ OccursAt pattern text i
  := by
  rintro i hi ⟨-, hprefix⟩
  have hend : text.length ≤ start := List.drop_eq_nil_iff.mp hdrop
  rw [List.drop_eq_nil_of_le (Nat.le_trans hend hi), List.prefix_nil] at hprefix
  exact hpattern hprefix

/-- What cutting goes through from a position on, where the first `skip` characters are passed:
there is one piece more than there are positions, and the pieces joined by a new text are the text
with the new one in place of the pattern, after the piece begun. -/
theorem exists_positions_cutFrom (hpattern : pattern ≠ []) (text : List Char) (start skip : Nat)
    (piece : List Char) :
  ∃ positions, FoundFrom pattern text (start + skip) positions
    ∧ (cutFrom pattern skip piece [] (text.drop start)).length = positions.length + 1
    ∧ ∀ new : List Char, new.intercalate (cutFrom pattern skip piece [] (text.drop start))
      = piece.reverse ++ substitute pattern.length new text (start + skip) positions
  := by
  generalize hdrop : text.drop start = suffix
  induction suffix generalizing start skip piece with
  | nil =>
      have hend : text.drop (start + skip) = [] := by
        rw [← List.drop_drop, hdrop, List.drop_nil]
      refine ⟨[], .none (not_occursAt_of_drop_eq_nil hpattern hend), rfl, fun new => ?_⟩
      rw [substitute, hend, cutFrom]
      simp
  | cons c rest ih =>
      obtain ⟨hlt, hnext⟩ := of_drop_eq_cons hdrop
      rw [cutFrom]
      split
      · -- The character belongs to the occurrence before.
        rename_i hskip
        have hstart : start + 1 + (skip - 1) = start + skip := by omega
        rw [← hstart]
        apply ih _ _ _ hnext
      · rename_i hskip
        obtain rfl : skip = 0 := by omega
        split
        · -- The pattern occurs here, and a piece ends.
          rename_i hprefix
          have hlength := List.length_pos_iff.mpr hpattern
          have hfound : OccursAt pattern text start := by
            refine ⟨Nat.le_of_lt hlt, ?_⟩
            rw [hdrop]
            exact List.isPrefixOf_iff_prefix.mp hprefix
          obtain ⟨positions, hpositions, hpieces, hreplaced⟩ :=
            ih (start + 1) (pattern.length - 1) [] hnext
          have hend : start + 1 + (pattern.length - 1) = start + pattern.length := by omega
          have hstep : max 1 pattern.length = pattern.length := by omega
          rw [hend] at hpositions hreplaced
          refine ⟨start :: positions, ?_, ?_, fun new => ?_⟩
          · apply FoundFrom.here hfound
            rwa [hstep]
          · rw [cutFrom_eq, List.length_append, hpieces]
            simp [Nat.add_comm]
          · rw [cutFrom_eq, List.reverse_singleton, List.singleton_append,
              List.intercalate_cons_of_ne_nil (cutFrom_ne_nil _ _ _ _ _), hreplaced, substitute]
            simp
        · -- The search goes on with the next character, which belongs to the piece begun.
          rename_i hprefix
          have hnot : ¬ OccursAt pattern text start := by
            rintro ⟨-, h⟩
            rw [hdrop] at h
            exact hprefix (List.isPrefixOf_iff_prefix.mpr h)
          obtain ⟨positions, hpositions, hpieces, hreplaced⟩ := ih (start + 1) 0 (c :: piece) hnext
          refine ⟨positions, hpositions.of_not_occursAt hnot, hpieces, fun new => ?_⟩
          rw [hreplaced, Nat.add_zero start, substitute_succ _ _ hdrop hpositions]
          simp

/-- The empty pattern is found before every character and at the end. -/
theorem exists_positions_nil (text : List Char) (hstart : start ≤ text.length) (piece : List Char) :
  ∃ positions, FoundFrom [] text start positions
    ∧ positions.length = (text.drop start).length + 1
    ∧ ∀ new : List Char, new.intercalate (piece :: (text.drop start).map (fun c => [c]) ++ [[]])
      = piece ++ substitute 0 new text start positions
  := by
  generalize hdrop : text.drop start = suffix
  induction suffix generalizing start piece with
  | nil =>
      have hlength := List.drop_eq_nil_iff.mp hdrop
      refine ⟨[start], ?_, rfl, fun new => ?_⟩
      · apply FoundFrom.here ⟨hstart, List.nil_prefix⟩
        apply FoundFrom.none
        rintro i hi ⟨hle, -⟩
        rw [List.length_nil] at hi
        omega
      · simp [substitute, hdrop, List.intercalate, List.intersperse]
  | cons c rest ih =>
      obtain ⟨hlt, hnext⟩ := of_drop_eq_cons hdrop
      obtain ⟨positions, hpositions, hlength, hreplaced⟩ := ih hlt [c] hnext
      refine ⟨start :: positions, ?_, ?_, fun new => ?_⟩
      · exact .here ⟨hstart, List.nil_prefix⟩ hpositions
      · rw [List.length_cons, hlength, List.length_cons]
      · rw [List.map_cons, List.cons_append, List.intercalate_cons_of_ne_nil (by simp), hreplaced,
          substitute, Nat.add_zero, substitute_succ _ _ hdrop hpositions]
        simp

/-- A pattern is counted as often as there are positions at which it is found, and replaced at these
positions. -/
theorem exists_positions (pattern text : List Char) :
  ∃ positions, FoundFrom pattern text 0 positions
    ∧ occurrences pattern text = positions.length
    ∧ ∀ new, replace pattern new text = substitute pattern.length new text 0 positions
  := by
  by_cases hpattern : pattern = []
  · obtain rfl := hpattern
    obtain ⟨positions, hpositions, hlength, hreplaced⟩ :=
      exists_positions_nil text (Nat.zero_le _) []
    refine ⟨positions, hpositions, ?_, fun new => hreplaced new⟩
    rw [hlength, occurrences, cut]
    simp
  · obtain ⟨positions, hpositions, hpieces, hreplaced⟩ :=
      exists_positions_cutFrom hpattern text 0 0 []
    have hcut : cut pattern text = cutFrom pattern 0 [] [] (text.drop 0) :=
      if_neg (mt List.isEmpty_iff.mp hpattern)
    refine ⟨positions, hpositions, ?_, fun new => ?_⟩
    · rw [occurrences, hcut, hpieces, Nat.add_sub_cancel]
    · rw [replace, hcut]
      exact hreplaced new

end Stencil.Text
