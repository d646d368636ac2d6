/-!
# Occurrences

Where a pattern occurs in a text.  `cut` cuts a text at the occurrences of the pattern
that are found from left to right without overlap, so that the pieces joined by the
pattern are the text again.  The empty pattern occurs before every character and at the
end.
-/

namespace Stencil.Text

/-- Whether the pattern occurs in the text. -/
def occursIn (pattern : List Char) : (text : List Char) → Bool
  | [] => pattern.isEmpty
  | c :: rest => pattern.isPrefixOf (c :: rest) || occursIn pattern rest

/-- The pieces of a text between the occurrences of a pattern that is not empty.  The
first `skip` characters belong to an occurrence already found; `piece` holds the piece
begun and `pieces` the pieces before it, both in reverse order. -/
def cutFrom (pattern : List Char) (skip : Nat) (piece : List Char)
    (pieces : List (List Char)) : (text : List Char) → List (List Char)
  | [] => (piece.reverse :: pieces).reverse
  | c :: rest =>
      if 0 < skip then cutFrom pattern (skip - 1) piece pieces rest
      else if pattern.isPrefixOf (c :: rest) then
        cutFrom pattern (pattern.length - 1) [] (piece.reverse :: pieces) rest
      else cutFrom pattern 0 (c :: piece) pieces rest

/-- The pieces of the text between the occurrences of the pattern. -/
def cut (pattern text : List Char) : List (List Char) :=
  if pattern.isEmpty then [] :: text.map (fun c => [c]) ++ [[]]
  else cutFrom pattern 0 [] [] text

/-- How often the pattern occurs without overlap. -/
def occurrences (pattern text : List Char) : Nat := (cut pattern text).length - 1

/-- The text with `new` in place of every occurrence of the pattern. -/
def replace (pattern new text : List Char) : List Char :=
  new.intercalate (cut pattern text)

/-- The pieces already found come first. -/
theorem cutFrom_eq (pattern : List Char) (skip : Nat) (piece : List Char)
    (pieces : List (List Char)) (text : List Char) :
  cutFrom pattern skip piece pieces text
    = pieces.reverse ++ cutFrom pattern skip piece [] text
  := by
  induction text generalizing skip piece pieces with
  | nil => simp [cutFrom]
  | cons c rest ih =>
      rw [cutFrom, cutFrom]
      split
      · apply ih
      · split
        · rw [ih, ih _ _ [piece.reverse]]
          simp
        · apply ih

/-- There is always at least one piece. -/
theorem cutFrom_ne_nil (pattern : List Char) (skip : Nat) (piece : List Char)
    (pieces : List (List Char)) (text : List Char) :
  cutFrom pattern skip piece pieces text ≠ []
  := by
  induction text generalizing skip piece pieces with
  | nil => simp [cutFrom]
  | cons c rest ih =>
      rw [cutFrom]
      split
      · apply ih
      · split <;> apply ih

end Stencil.Text
