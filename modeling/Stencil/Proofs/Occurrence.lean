import Stencil.Proofs.Growth

/-!
# What occurs in a text

The member `contains` looks for a pattern, and the member `replace` counts it before it replaces it.
Both find it exactly if it is a part of the text, also if it is empty.  A text in which it is not
found stays as it is when the pattern is replaced, and so does every text when the pattern is replaced
by itself (`Context.contains_agrees_with_replace`): the pieces between the occurrences, joined by the
pattern, are the text again.
-/

namespace Stencil

namespace Text

variable {pattern new text : List Char}

theorem occursIn_iff :
  occursIn pattern text = true ↔ pattern <:+: text
  := by
  induction text with
  | nil => rw [occursIn, List.isEmpty_iff, List.infix_nil]
  | cons c rest ih =>
      rw [occursIn, Bool.or_eq_true, List.isPrefixOf_iff_prefix, ih, List.infix_cons_iff]

/-- A part of a text is what occurs at some position. -/
theorem infix_iff_exists_occursAt :
  pattern <:+: text ↔ ∃ i, OccursAt pattern text i
  := by
  constructor
  · rintro ⟨before, after, rfl⟩
    refine ⟨before.length, ?_, ?_⟩
    · simp
    · rw [List.append_assoc, List.drop_left]
      apply List.prefix_append
  · rintro ⟨i, -, hprefix⟩
    apply hprefix.isInfix.trans (List.drop_suffix i text).isInfix

/-- A pattern is counted at all exactly if it is a part of the text. -/
theorem occurrences_pos_iff :
  0 < occurrences pattern text ↔ pattern <:+: text
  := by
  obtain ⟨positions, hfound, hcount, -⟩ := exists_positions pattern text
  rw [hcount, infix_iff_exists_occursAt]
  cases hfound with
  | none hnone =>
      constructor
      · intro hpos
        cases hpos
      · rintro ⟨i, hi⟩
        exact absurd hi (hnone i (Nat.zero_le i))
  | next _ hfound =>
      constructor
      · intro
        exact ⟨_, hfound⟩
      · intro
        apply Nat.zero_lt_succ

/-! ### Texts that stay as they are -/

theorem eq_nil_of_bytes (h : bytes text = 0) :
  text = []
  := by
  cases text with
  | nil => rfl
  | cons c rest =>
      have hc := c.utf8Size_pos
      rw [bytes_cons] at h
      omega

/-- Beginnings of one text that take equally many bytes are the same. -/
theorem eq_of_append_eq {s t s' t' : List Char} (h : s ++ s' = t ++ t') (hbytes : bytes s = bytes t) :
  s = t
  := by
  obtain ⟨more, rfl, -⟩ | ⟨more, rfl, -⟩ := List.append_eq_append_iff.mp h
  · rw [bytes_append] at hbytes
    have hmore : more = [] := eq_nil_of_bytes (by omega)
    rw [hmore, List.append_nil]
  · rw [bytes_append] at hbytes
    have hmore : more = [] := eq_nil_of_bytes (by omega)
    rw [hmore, List.append_nil]

/-- Pieces are joined by two texts to the same text only if the two are the same or there is nothing
to join. -/
theorem intercalate_eq_iff {pieces : List (List Char)} (h : pieces ≠ []) :
  new.intercalate pieces = pattern.intercalate pieces ↔ pieces.length = 1 ∨ new = pattern
  := by
  constructor
  · intro hjoined
    have hbytes := congrArg bytes hjoined
    rw [bytes_intercalate _ h, bytes_intercalate _ h, Nat.add_left_cancel_iff] at hbytes
    cases pieces with
    | nil => contradiction
    | cons piece rest =>
        cases rest with
        | nil => exact .inl rfl
        | cons next rest =>
            right
            rw [List.intercalate_cons_cons, List.intercalate_cons_cons, List.append_assoc,
              List.append_assoc, List.append_cancel_left_eq] at hjoined
            apply eq_of_append_eq hjoined
            apply Nat.eq_of_mul_eq_mul_left _ hbytes
            simp
  · rintro (hlength | rfl)
    · obtain ⟨piece, rfl⟩ := List.length_eq_one_iff.mp hlength
      rw [List.intercalate_singleton, List.intercalate_singleton]
    · rfl

/-- A text stays as it is exactly if the pattern is not found in it or is replaced by itself. -/
theorem replace_eq_self_iff :
  replace pattern new text = text ↔ ¬ pattern <:+: text ∨ new = pattern
  := by
  have hne := cut_ne_nil pattern text
  have hlength : (cut pattern text).length = 1 ↔ ¬ pattern <:+: text := by
    have hpos := List.length_pos_iff.mpr hne
    rw [← occurrences_pos_iff, occurrences]
    omega
  rw [← hlength, ← intercalate_eq_iff hne, intercalate_cut, replace]

end Text

/-- What is built from a text is the text itself if it is meant to be and is within the limit. -/
theorem Limits.building_eq_proceed_iff {limits : Limits} {operation text s : String} :
  limits.building operation s text = proceed (.string s)
    ↔ text = s ∧ text.utf8ByteSize ≤ limits.maxStringLen.toNat
  := by
  have hlargest := limits.maxStringLen.toNat_le_largest
  rw [building_eq]
  split
  · simp only [fail, proceed, reduceCtorEq, false_iff]
    omega
  · split
    · simp only [fail, proceed, reduceCtorEq, false_iff]
      omega
    · rename_i hlimit
      split
      · rename_i hgrows
        simp only [abort, fail, proceed, reduceCtorEq, false_iff]
        rintro ⟨rfl, -⟩
        exact Nat.lt_irrefl _ hgrows.2
      · simp only [proceed, Except.ok.injEq, Outcome.proceed.injEq, Value.string.injEq]
        exact (and_iff_left (Nat.not_lt.mp hlimit)).symm

namespace Context

variable {c d e : Context} {p q : Node} {x y : Value} {text : String}

theorem call_contains (hroom : c.depth < c.limits.maxCallDepth.toNat)
    (hx : (c.inside hroom).evaluate p = (proceed x, d)) (text : String) (scope : Option Scope) :
  c.call (.member (.string text) "contains" [p] scope)
    = (proceed (.boolean (Text.occursIn x.display.toList text.toList)),
      c.withEnvironment d.environment)
  := by
  apply call_member hroom (.string text) scope rfl rfl
  simp only [Member.contains]
  rw [run_argument Nat.one_pos hx]
  rfl

/-- The member `contains` finds what the member `replace` replaces.  A value is found in a string
exactly if its display text is a part of the string, and exactly then it is counted to be replaced.
A string within the limit stays as it is exactly if the value is not found or is replaced by one with
the same display text. -/
theorem contains_agrees_with_replace (hroom : c.depth < c.limits.maxCallDepth.toNat)
    (hlimit : text.utf8ByteSize ≤ c.limits.maxStringLen.toNat) (scope : Option Scope)
    (hx : (c.inside hroom).evaluate p = (proceed x, d)) (hy : d.evaluate q = (proceed y, e)) :
  ∃ found : Bool,
    c.call (.member (.string text) "contains" [p] scope)
      = (proceed (.boolean found), c.withEnvironment d.environment)
    ∧ (found = true ↔ x.display.toList <:+: text.toList)
    ∧ (found = true ↔ 0 < Text.occurrences x.display.toList text.toList)
    ∧ (c.call (.member (.string text) "replace" [p, q] scope)
        = (proceed (.string text), c.withEnvironment e.environment)
      ↔ found = false ∨ y.display = x.display)
  := by
  refine ⟨_, call_contains hroom hx text scope, Text.occursIn_iff, ?_, ?_⟩
  · rw [Text.occurrences_pos_iff, Text.occursIn_iff]
  · have hsame : String.ofList (Text.replace x.display.toList y.display.toList text.toList) = text
        ↔ ¬ x.display.toList <:+: text.toList ∨ y.display = x.display := by
      rw [← String.toList_inj, String.toList_ofList, Text.replace_eq_self_iff, String.toList_inj]
    rw [call_replace hroom hx hy, Prod.mk.injEq, and_iff_left rfl, Limits.building_eq_proceed_iff,
      Bool.eq_false_iff, ne_eq, Text.occursIn_iff, ← hsame]
    constructor
    · rintro ⟨hreplaced, -⟩
      exact hreplaced
    · intro hreplaced
      rw [hreplaced]
      exact ⟨rfl, hlimit⟩

/-- The text of the integer three is no part of `v12`, so that replacing it leaves `v12` as it is.  The
empty text is a part of it, and so does replacing the empty text by itself. -/
theorem contains_agrees_with_replace_of_version :
  ∃ (c : Context) (version : Value),
    version = .string (String.ofList ['v', '1', '2']) ∧ c.depth < c.limits.maxCallDepth.toNat
      ∧ c.call (.member version "contains" [.literal (.integer 3)] none)
        = (proceed (.boolean false), c)
      ∧ c.call (.member version "replace" [.literal (.integer 3), .literal (.boolean true)] none)
        = (proceed version, c)
      ∧ c.call (.member version "contains" [.literal .empty] none) = (proceed (.boolean true), c)
      ∧ c.call (.member version "replace" [.literal .empty, .literal .empty] none)
        = (proceed version, c)
  := by
  let c := root ⟨10, 9⟩
  have hroom : c.depth < c.limits.maxCallDepth.toNat := by decide
  have hlimit : (String.ofList ['v', '1', '2']).utf8ByteSize ≤ c.limits.maxStringLen.toNat := by
    rw [Text.utf8ByteSize_ofList]
    decide
  obtain ⟨three, hthree, -, hcount, hreplace⟩ := contains_agrees_with_replace hroom hlimit none
    (evaluate_literal (.integer 3)) (evaluate_literal (.boolean true))
  have hnone : three = false := by
    rw [Bool.eq_false_iff, ne_eq, hcount, String.toList_ofList]
    decide
  obtain ⟨nothing, hnothing, -, hcount', hreplace'⟩ := contains_agrees_with_replace hroom hlimit none
    (evaluate_literal .empty) (evaluate_literal .empty)
  have hsome : nothing = true := by
    rw [hcount', String.toList_ofList]
    decide
  rw [hnone] at hthree
  rw [hsome] at hnothing
  exact ⟨c, _, rfl, hroom, hthree, hreplace.mpr (.inl hnone), hnothing, hreplace'.mpr (.inr rfl)⟩

end Context

end Stencil
