/-!
# Copies

A text put together from copies of another.  The number of copies is halved at every step,
so that the empty text can be copied any number of times.
-/

namespace Stencil.Text

/-- The text that consists of `count` copies of `text`. -/
def copies (count : Nat) (text : String) : String :=
  if count = 0 then ""
  else
    let half := copies (count / 2) text
    if count % 2 = 0 then half ++ half else half ++ half ++ text
termination_by count

theorem toList_copies (count : Nat) (text : String) :
  (copies count text).toList = (List.replicate count text.toList).flatten
  := by
  induction count using Nat.strongRecOn with
  | ind n ih =>
      rw [copies]
      split
      · subst n
        simp
      · rename_i hn
        have half := ih (n / 2) (by omega)
        have append : ∀ k, (List.replicate (k + k) text.toList).flatten
            = (List.replicate k text.toList).flatten
              ++ (List.replicate k text.toList).flatten := by
          intro k
          rw [← List.replicate_append_replicate, List.flatten_append]
        simp only
        split
        · rename_i even
          rw [String.toList_append, half, ← append]
          congr 2
          omega
        · rename_i odd
          rw [String.toList_append, String.toList_append, half, ← append]
          have whole : List.replicate n text.toList
              = List.replicate (n / 2 + n / 2) text.toList ++ [text.toList] := by
            rw [← List.replicate_succ']
            congr 1
            omega
          rw [whole, List.flatten_append]
          simp

end Stencil.Text
