import Stencil.Proofs.StringLimit
import Stencil.Proofs.Text.Positions

/-!
# Texts that members build

The members `repeat` and `replace` work out how long their result is before they build it.  The
length is that of the text they would build, so that they fail exactly if that text is too long, and
name its length then.  But the limit of a run may be above what texts can take: a text between the two
is found to be acceptable and cannot be built, and the run is aborted instead
(`Context.builds_as_predicted_iff`).
-/

namespace Stencil

namespace Limits

variable (limits : Limits)

/-- What should come of building a text: the text, unless its length is no size or beyond the
limit. -/
def predicted (operation text : String) : Result :=
  if Size.largest.toNat < text.utf8ByteSize then fail (.integerOverflow operation)
  else if limits.maxStringLen.toNat < text.utf8ByteSize then
    fail (.stringTooLong operation text.utf8ByteSize limits.maxStringLen)
  else proceed (.string text)

/-- The limit admits a text that is longer than any text can grow. -/
def Overcommits (source text : String) : Prop :=
  Size.capacity.toNat < text.utf8ByteSize ∧ source.utf8ByteSize < text.utf8ByteSize
    ∧ text.utf8ByteSize ≤ limits.maxStringLen.toNat

instance (source text : String) : Decidable (limits.Overcommits source text) :=
  inferInstanceAs (Decidable (_ ∧ _ ∧ _))

/-- What comes of building a text from another. -/
def building (operation source text : String) : Result :=
  if limits.Overcommits source text then abort else limits.predicted operation text

variable {limits} {operation source text : String}

/-- A run is not aborted because a text is too long. -/
theorem predicted_ne_abort :
  limits.predicted operation text ≠ abort
  := by
  rw [predicted]
  split
  · nofun
  · split <;> nofun

/-- What comes of building a text is what should, unless the limit admits too much. -/
theorem building_eq_predicted_iff :
  limits.building operation source text = limits.predicted operation text
    ↔ ¬ limits.Overcommits source text
  := by
  rw [building]
  split
  · rename_i hover
    exact iff_of_false predicted_ne_abort.symm (not_not_intro hover)
  · rename_i hfits
    exact iff_of_true rfl hfits

/-- The limits are asked in this order. -/
theorem building_eq :
  limits.building operation source text
    = if Size.largest.toNat < text.utf8ByteSize then fail (.integerOverflow operation)
      else if limits.maxStringLen.toNat < text.utf8ByteSize then
        fail (.stringTooLong operation text.utf8ByteSize limits.maxStringLen)
      else if Size.capacity.toNat < text.utf8ByteSize
          ∧ source.utf8ByteSize < text.utf8ByteSize then abort
      else proceed (.string text)
  := by
  have hlargest := limits.maxStringLen.toNat_le_largest
  rw [building, predicted]
  split
  · rename_i hover
    obtain ⟨hcapacity, hgrows, hlimit⟩ := hover
    rw [if_neg (by omega), if_neg (by omega), if_pos ⟨hcapacity, hgrows⟩]
  · rename_i hfits
    split
    · rfl
    · split
      · rfl
      · rename_i hlimit
        rw [if_neg]
        rintro ⟨hcapacity, hgrows⟩
        exact hfits ⟨hcapacity, hgrows, Nat.not_lt.mp hlimit⟩

end Limits

namespace Text

/-- The occurrences of a pattern fit into the text. -/
theorem occurrences_mul_bytes_le (pattern text : List Char) :
  occurrences pattern text * bytes pattern ≤ bytes text
  := by
  have hremoved := bytes_replace pattern [] text
  rw [bytes_nil, Nat.mul_zero] at hremoved
  omega

/-- The length of a text with a pattern replaced, as it is worked out beforehand. -/
theorem utf8ByteSize_replace (pattern new text : String) :
  text.utf8ByteSize - occurrences pattern.toList text.toList * pattern.utf8ByteSize
      + occurrences pattern.toList text.toList * new.utf8ByteSize
    = (String.ofList (replace pattern.toList new.toList text.toList)).utf8ByteSize
  := by
  rw [utf8ByteSize_ofList, ← Member.bytes_replace_eq]
  simp only [utf8ByteSize_eq_bytes]

theorem copies_eq_join (count : Nat) (text : String) :
  copies count text = String.join (List.replicate count text)
  := by
  apply String.toList_inj.mp
  rw [toList_copies, String.toList_join]
  simp [List.flatMap_replicate]

end Text

namespace Context

variable {c : Context} {args : List Node}

/-- A text that is built after its length has been worked out. -/
theorem run_building {operation source text : String} {length : Nat}
    (h : length = text.utf8ByteSize) :
  c.run args (Member.withinLimit operation source length fun _ => .done (proceed (.string text)))
    = (c.limits.building operation source text, c)
  := by
  subst h
  rw [Limits.building_eq, Member.withinLimit]
  split
  · rfl
  · rw [run, Body.run]
    split
    · rfl
    · split <;> rfl

variable {d e : Context} {x y : Node}

theorem call_replace (hroom : c.depth < c.limits.maxCallDepth.toNat) {p q : Value}
    (hx : (c.inside hroom).evaluate x = (proceed p, d)) (hy : d.evaluate y = (proceed q, e))
    (text : String) (scope : Option Scope) :
  c.call (.member (.string text) "replace" [x, y] scope)
    = (c.limits.building "replace" text (String.ofList
        (Text.replace p.display.toList q.display.toList text.toList)),
      c.withEnvironment e.environment)
  := by
  have hlimits : c.limits = e.limits := by
    rw [limits_of_evaluate hy, limits_of_evaluate hx]
    rfl
  apply call_member hroom (.string text) scope rfl rfl
  simp only [Member.replace]
  rw [hlimits, run_argument Nat.zero_lt_two hx, run_argument Nat.one_lt_two hy]
  exact run_building (Text.utf8ByteSize_replace _ _ _)

theorem call_repeat (hroom : c.depth < c.limits.maxCallDepth.toNat) {n : Int64}
    (hx : (c.inside hroom).evaluate x = (proceed (.integer n), d)) (text : String)
    (scope : Option Scope) :
  c.call (.member (.string text) "repeat" [x] scope)
    = (if n.toInt < 0 then
          .error (.ofMessage ("repeat count must not be negative, got " ++ toString n.toInt))
        else c.limits.building "repeat" text (Text.copies n.toInt.toNat text),
      c.withEnvironment d.environment)
  := by
  have hlimits : c.limits = d.limits := (limits_of_evaluate hx).symm
  have hsign : n < 0 ↔ n.toInt < 0 := Int64.lt_iff_toInt_lt
  apply call_member hroom (.string text) scope rfl rfl
  simp only [Member.repeated]
  rw [hlimits, run_argument Nat.one_pos hx]
  simp only [hsign]
  split
  · rfl
  · exact run_building (Text.utf8ByteSize_copies _ _).symm

/-- The members `replace` and `repeat` give the text that they should, or fail because of its length
without having built it, exactly if the limit does not admit a text that cannot be built; if it does,
the run is aborted.  To replace, the pattern is counted as often as it is found; that many occurrences
fit into the text, and what is worked out from their number is the length of the result.  The copies
of a text take as many bytes as there are copies of it. -/
theorem builds_as_predicted_iff (c : Context) (hroom : c.depth < c.limits.maxCallDepth.toNat)
    (text : String) (scope : Option Scope) :
  (∀ (x y : Node) (p q : Value) (d e : Context),
      (c.inside hroom).evaluate x = (proceed p, d) → d.evaluate y = (proceed q, e) →
      ∃ positions result,
        Text.FoundFrom p.display.toList text.toList 0 positions
          ∧ Text.occurrences p.display.toList text.toList = positions.length
          ∧ positions.length * p.display.utf8ByteSize ≤ text.utf8ByteSize
          ∧ result = String.ofList (Text.substitute p.display.toList.length q.display.toList
              text.toList 0 positions)
          ∧ text.utf8ByteSize - positions.length * p.display.utf8ByteSize
              + positions.length * q.display.utf8ByteSize = result.utf8ByteSize
          ∧ (c.call (.member (.string text) "replace" [x, y] scope)
              = (c.limits.predicted "replace" result, c.withEnvironment e.environment)
            ↔ ¬ c.limits.Overcommits text result)
          ∧ (c.limits.Overcommits text result →
            (c.call (.member (.string text) "replace" [x, y] scope)).1 = abort))
    ∧ ∀ (x : Node) (n : Int64) (d : Context),
      (c.inside hroom).evaluate x = (proceed (.integer n), d) →
      (n.toInt < 0 →
        c.call (.member (.string text) "repeat" [x] scope)
          = (.error (.ofMessage ("repeat count must not be negative, got " ++ toString n.toInt)),
            c.withEnvironment d.environment))
      ∧ (0 ≤ n.toInt → ∃ result,
        result = String.join (List.replicate n.toInt.toNat text)
          ∧ text.utf8ByteSize * n.toInt.toNat = result.utf8ByteSize
          ∧ (c.call (.member (.string text) "repeat" [x] scope)
              = (c.limits.predicted "repeat" result, c.withEnvironment d.environment)
            ↔ ¬ c.limits.Overcommits text result)
          ∧ (c.limits.Overcommits text result →
            (c.call (.member (.string text) "repeat" [x] scope)).1 = abort))
  := by
  have hbuilding : ∀ {operation result : String} {r : Result × Context} {c' : Context},
      r = (c.limits.building operation text result, c') →
        (r = (c.limits.predicted operation result, c') ↔ ¬ c.limits.Overcommits text result)
          ∧ (c.limits.Overcommits text result → r.1 = abort) := by
    rintro operation result r c' rfl
    constructor
    · rw [Prod.mk.injEq, and_iff_left rfl, Limits.building_eq_predicted_iff]
    · intro hover
      apply if_pos hover
  constructor
  · intro x y p q d e hx hy
    obtain ⟨positions, hpositions, hcount, hreplaced⟩ :=
      Text.exists_positions p.display.toList text.toList
    refine ⟨positions, _, hpositions, hcount, ?_, rfl, ?_, ?_⟩
    · rw [← hcount, Text.utf8ByteSize_eq_bytes, Text.utf8ByteSize_eq_bytes]
      exact Text.occurrences_mul_bytes_le _ _
    · rw [← hcount, ← hreplaced]
      exact Text.utf8ByteSize_replace _ _ _
    · rw [← hreplaced]
      exact hbuilding (call_replace hroom hx hy text scope)
  · intro x n d hx
    have hcall := call_repeat hroom hx text scope
    constructor
    · intro hneg
      rwa [if_pos hneg] at hcall
    · intro hn
      rw [if_neg (Int.not_lt.mpr hn)] at hcall
      refine ⟨_, rfl, ?_, ?_⟩
      · rw [← Text.copies_eq_join, Text.utf8ByteSize_copies]
      · rw [← Text.copies_eq_join]
        exact hbuilding hcall

/-- Of `aa` in `aaa€`, only the first occurrence is replaced; putting `€€` in its place takes ten
bytes.  The empty pattern is replaced before every character and at the end. -/
theorem builds_as_predicted_iff_of_overlapping :
  ∃ c : Context, c.limits = ⟨10, 9⟩ ∧ c.depth = 0
    ∧ c.call (.member (.string (String.ofList ['a', 'a', 'a', '€'])) "replace"
        [.literal (.string (String.ofList ['a', 'a'])),
          .literal (.string (String.ofList ['€', '€']))] none)
      = (fail (.stringTooLong "replace" 10 9), c)
    ∧ c.call (.member (.string (String.ofList ['é', '€'])) "replace"
        [.literal (.string (String.ofList [])), .literal (.integer 1)] none)
      = (proceed (.string (String.ofList ['1', 'é', '1', '€', '1'])), c)
    ∧ c.call (.member (.string (String.ofList ['€'])) "repeat" [.literal (.integer 4)] none)
      = (fail (.stringTooLong "repeat" 12 9), c)
  := by
  let c := root ⟨10, 9⟩
  have hroom : c.depth < c.limits.maxCallDepth.toNat := by decide
  have hfits : ∀ source text : String, ¬ c.limits.Overcommits source text := by
    rintro source text ⟨hcapacity, -, hlimit⟩
    exact absurd (Nat.lt_of_lt_of_le hcapacity hlimit) (by decide)
  refine ⟨c, rfl, rfl, ?_, ?_, ?_⟩
  · obtain ⟨hreplace, -⟩ :=
      c.builds_as_predicted_iff hroom (String.ofList ['a', 'a', 'a', '€']) none
    obtain ⟨positions, result, -, hcount, -, -, hlength, hcall, -⟩ :=
      hreplace _ _ _ _ _ _ (evaluate_literal (.string (String.ofList ['a', 'a'])))
        (evaluate_literal (.string (String.ofList ['€', '€'])))
    simp only [Value.display, String.toList_ofList, Text.utf8ByteSize_ofList] at hcount hlength
    rw [← hcount] at hlength
    have hten : result.utf8ByteSize = 10 := hlength.symm.trans (by decide)
    rw [hcall.mpr (hfits _ _), Limits.predicted, hten]
    rfl
  · obtain ⟨hreplace, -⟩ := c.builds_as_predicted_iff hroom (String.ofList ['é', '€']) none
    obtain ⟨positions, result, hpositions, -, -, hresult, -, hcall, -⟩ :=
      hreplace _ _ _ _ _ _ (evaluate_literal (.string (String.ofList [])))
        (evaluate_literal (.integer 1))
    simp only [Value.display, String.toList_ofList] at hpositions hresult
    have hfound : Text.FoundFrom [] ['é', '€'] 0 [0, 1, 2] := by
      have hoccurs : ∀ i ≤ 2, Text.OccursAt [] ['é', '€'] i := fun i hi => ⟨hi, List.nil_prefix⟩
      have hend : ∀ i, 3 ≤ i → ¬ Text.OccursAt [] ['é', '€'] i :=
        fun i hi hoccurs => absurd hoccurs.1 (Nat.not_le_of_lt hi)
      exact .here (hoccurs 0 (by decide)) (.here (hoccurs 1 (by decide))
        (.here (hoccurs 2 (by decide)) (.none hend)))
    rw [hpositions.unique hfound] at hresult
    rw [hcall.mpr (hfits _ _), Limits.predicted, hresult, Text.utf8ByteSize_ofList]
    rfl
  · obtain ⟨-, hrepeat⟩ := c.builds_as_predicted_iff hroom (String.ofList ['€']) none
    obtain ⟨-, hcopies⟩ := hrepeat _ 4 _ (evaluate_literal _)
    obtain ⟨result, -, hlength, hcall, -⟩ := hcopies (by decide)
    rw [Text.utf8ByteSize_ofList] at hlength
    have htwelve : result.utf8ByteSize = 12 := hlength.symm.trans (by decide)
    rw [hcall.mpr (hfits _ _), Limits.predicted, htwelve]
    rfl

/-- Without limits, `2 ^ 63 - 1` copies of `ab` are admitted, which take almost `2 ^ 64` bytes, and
are not given: the run is aborted. -/
theorem not_builds_as_predicted :
  ¬ ∀ (c : Context) (hroom : c.depth < c.limits.maxCallDepth.toNat) (text : String)
      (scope : Option Scope) (x : Node) (n : Int64) (d : Context),
    (c.inside hroom).evaluate x = (proceed (.integer n), d) → 0 ≤ n.toInt →
      (c.call (.member (.string text) "repeat" [x] scope)).1
        = c.limits.predicted "repeat" (String.join (List.replicate n.toInt.toNat text))
  := by
  intro h
  let c := root .unlimited
  let text := String.ofList ['a', 'b']
  have hroom : c.depth < c.limits.maxCallDepth.toNat := by decide
  have hcall := call_repeat hroom (evaluate_literal (.integer Int64.maxValue)) text none
  have hpredicted := h c hroom text none _ _ _ (evaluate_literal (.integer Int64.maxValue))
    (by decide)
  have hlength : (Text.copies Int64.maxValue.toInt.toNat text).utf8ByteSize
      = 18446744073709551614 := by
    rw [Text.utf8ByteSize_copies, Text.utf8ByteSize_ofList]
    rfl
  have htext : text.utf8ByteSize = 2 := Text.utf8ByteSize_ofList ['a', 'b']
  have hover : c.limits.Overcommits text (Text.copies Int64.maxValue.toInt.toNat text) := by
    rw [Limits.Overcommits, hlength, htext]
    decide
  rw [hcall, if_neg (by decide), ← Text.copies_eq_join] at hpredicted
  exact Limits.building_eq_predicted_iff.mp hpredicted hover

end Context

end Stencil
