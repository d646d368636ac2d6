import Stencil.Proofs.Double.Text
import Stencil.Text.Quoted
import Stencil.Value.Basic

/-!
# Lines

The lines of a text are what stands between its line feeds.  Lines that are put together with line
feeds between them can be told apart again, as long as there is none inside of them
(`Text.lines_intercalate`).  There is none in a quoted text, and none in the display text of a value
that is not a string.
-/

namespace Stencil

namespace Text

/-- The lines of a text. -/
def lines (text : String) : List String := (text.toList.splitOn '\n').map String.ofList

/-- There is no line feed in the text. -/
def IsLine (text : List Char) : Prop := '\n' ∉ text

instance (text : List Char) : Decidable (IsLine text) := inferInstanceAs (Decidable (¬ _))

theorem lines_intercalate {texts : List String} (hne : texts ≠ [])
    (h : ∀ text ∈ texts, IsLine text.toList) :
  lines (String.intercalate "\n" texts) = texts
  := by
  have hlines : ∀ text ∈ texts.map String.toList, '\n' ∉ text := List.forall_mem_map.mpr h
  have hsplit := List.splitOn_intercalate '\n' hlines (mt List.map_eq_nil_iff.mp hne)
  rw [lines, String.toList_intercalate]
  apply (congrArg (List.map String.ofList) hsplit).trans
  simp

variable {text rest : List Char}

theorem isLine_append :
  IsLine (text ++ rest) ↔ IsLine text ∧ IsLine rest
  := by simp [IsLine]

theorem isLine_cons {c : Char} :
  IsLine (c :: rest) ↔ c ≠ '\n' ∧ IsLine rest
  := by simp [IsLine, eq_comm]

theorem isLine_framed {before inside after : String} (hbefore : IsLine before.toList)
    (hinside : IsLine inside.toList) (hafter : IsLine after.toList) :
  IsLine (before ++ inside ++ after).toList
  := by
  rw [String.toList_append, String.toList_append, isLine_append, isLine_append]
  exact ⟨⟨hbefore, hinside⟩, hafter⟩

/-! ### Numbers -/

theorem isLine_toDigits {base : Nat} (hbase : 1 < base) (n : Nat) :
  IsLine (Nat.toDigits base n)
  := by
  induction n using Nat.strongRecOn with
  | _ n ih =>
      by_cases hn : n < base
      · rw [Nat.toDigits_of_lt_base hn, isLine_cons]
        exact ⟨Nat.digitChar_ne _ rfl, nofun⟩
      · have hlt : n / base < n := Nat.div_lt_self (by omega) hbase
        rw [Nat.toDigits_of_base_le hbase (Nat.le_of_not_lt hn), isLine_append, isLine_cons]
        exact ⟨ih _ hlt, Nat.digitChar_ne _ rfl, nofun⟩

theorem isLine_toString_nat (n : Nat) :
  IsLine (toString n).toList
  := by
  rw [Nat.toString_eq_ofList_toDigits, String.toList_ofList]
  apply isLine_toDigits (by decide)

/-! ### Quoted texts -/

theorem isLine_escape (c : Char) :
  IsLine (escape c)
  := by
  unfold escape
  iterate 6
    split
    · decide
  split
  · rw [escapeCode, isLine_append, isLine_append]
    exact ⟨⟨by decide, isLine_toDigits (by decide) _⟩, by decide⟩
  · rw [isLine_cons]
    exact ⟨by assumption, nofun⟩

/-- In a quoted text line feeds are escaped. -/
theorem isLine_quoted (text : String) :
  IsLine (quoted text).toList
  := by
  rw [quoted, String.toList_ofList, isLine_append, isLine_cons]
  refine ⟨⟨by decide, fun hmem => ?_⟩, by decide⟩
  obtain ⟨c, -, hc⟩ := List.mem_flatMap.mp hmem
  exact isLine_escape c hc

/-! ### Display texts -/

theorem isLine_double (d : Float) :
  IsLine (Double.text d).toList
  := by
  intro hmem
  cases hfinite : Double.isFinite d with
  | true => exact absurd (Double.mem_text_of_isFinite hfinite hmem) (by decide)
  | false =>
      rcases Double.text_of_not_isFinite hfinite with htext | htext | htext <;> rw [htext] at hmem
        <;> exact absurd hmem (by decide)

/-- Only strings have line feeds in their display texts. -/
theorem isLine_display {v : Value} (h : v.kind ≠ .string) :
  IsLine v.display.toList
  := by
  cases v with
  | string text => contradiction
  | boolean b => cases b <;> decide
  | double d => apply isLine_double
  | integer n => exact fun hmem => absurd (Integer.mem_toString hmem) (by decide)

end Text

end Stencil
