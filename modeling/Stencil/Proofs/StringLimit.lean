import Stencil.Proofs.Member
import Stencil.Proofs.Outcome
import Stencil.Proofs.Text.Bytes

/-!
# The limit on strings

The members of strings that build a new text work out its length first, so that the strings
they give are within the limit of the run, and so are those of the members that only take
something away.  The members that map the case do not ask for the limit.  So the strings
that members give for a receiver within the limit are within it, except where mapping the
case lengthens the receiver beyond it, and there they are at most three times as long
(`Context.string_within_limit_iff`).
-/

namespace Stencil

/-- If the value is a string, then it takes at most `limit` bytes. -/
def Value.Within (limit : Nat) (v : Value) : Prop :=
  ∀ text, v = .string text → text.utf8ByteSize ≤ limit

namespace Member

/-- What the members that map the case do to a text. -/
def caseMapping? (name : String) : Option (List Char → List Char) :=
  if name = "lower" then some Text.lower
  else if name = "upper" then some Text.upper
  else none

theorem bytes_caseMapping_le {name : String} {map : List Char → List Char}
    (h : caseMapping? name = some map) (text : List Char) :
  Text.bytes (map text) ≤ 3 * Text.bytes text
  := by
  rw [caseMapping?] at h
  split at h
  · obtain rfl := Option.some.inj h
    apply Text.bytes_lower_le
  · split at h
    · obtain rfl := Option.some.inj h
      apply Text.bytes_upper_le
    · cases h

variable (count : Nat) {limits : Limits}

theorem gives_string {count : Nat} {text : String}
    (h : text.utf8ByteSize ≤ limits.maxStringLen.toNat) :
  (Body.done (proceed (.string text)) : Body count).Gives limits
    (Value.Within limits.maxStringLen.toNat)
  := by
  rintro v hv given rfl
  obtain rfl := Value.string.inj (Outcome.proceed.inj (Except.ok.inj hv))
  exact h

/-- What is built after the length has been checked is within the limit, if the length is
right. -/
theorem gives_withinLimit {count : Nat} {operation source : String} {length : Nat}
    {next : Unit → Body count}
    (h : length ≤ limits.maxStringLen.toNat →
      (next ()).Gives limits (Value.Within limits.maxStringLen.toNat)) :
  (withinLimit operation source length next).Gives limits
    (Value.Within limits.maxStringLen.toNat)
  := by
  rw [withinLimit]
  split
  · apply Body.gives_error
  · rw [Body.Gives]
    split
    · apply Body.gives_error
    · rename_i hlimit
      split
      · apply Body.gives_error
      · exact h (Nat.le_of_not_lt hlimit)

/-- The bytes of a replaced text, as they are worked out beforehand. -/
theorem bytes_replace_eq (pattern new text : List Char) :
  Text.bytes text - Text.occurrences pattern text * Text.bytes pattern
      + Text.occurrences pattern text * Text.bytes new
    = Text.bytes (Text.replace pattern new text)
  := by
  have hreplaced := Text.bytes_replace pattern new text
  have hsame := Text.bytes_replace pattern [] text
  rw [Text.bytes_nil, Nat.mul_zero, Nat.add_zero] at hsame
  omega

/-- The members that map the case take no arguments and give the mapped receiver. -/
theorem of_caseMapping {m : Member} (h : m ∈ ofString) {map : List Char → List Char}
    (hmap : caseMapping? m.name = some map) :
  m.arity = .nullary ∧ ∀ c : Invocation, m.body c count = giveText (map c.text.toList)
  := by
  simp only [ofString, List.mem_cons, List.not_mem_nil, or_false] at h
  obtain rfl | rfl | rfl | rfl | rfl | rfl := h
  · obtain rfl := Option.some.inj hmap
    exact ⟨rfl, fun _ => rfl⟩
  · obtain rfl := Option.some.inj hmap
    exact ⟨rfl, fun _ => rfl⟩
  · cases hmap
  · cases hmap
  · cases hmap
  · cases hmap

/-- There is a member of strings for every mapping of the case. -/
theorem find?_of_caseMapping {name : String} {map : List Char → List Char}
    (hmap : caseMapping? name = some map) :
  ∃ m, find? .string name = some m
  := by
  rw [caseMapping?] at hmap
  split at hmap
  · rename_i hname
    exact ⟨lower, by rw [hname]; rfl⟩
  · split at hmap
    · rename_i hname
      exact ⟨upper, by rw [hname]; rfl⟩
    · cases hmap

/-- The other members of strings give strings within the limit. -/
theorem gives_of_caseMapping_eq_none {m : Member} (h : m ∈ ofString)
    (hmap : caseMapping? m.name = none) (c : Invocation)
    (hreceiver : c.text.utf8ByteSize ≤ limits.maxStringLen.toNat) :
  (m.body c count).Gives limits (Value.Within limits.maxStringLen.toNat)
  := by
  simp only [ofString, List.mem_cons, List.not_mem_nil, or_false] at h
  obtain rfl | rfl | rfl | rfl | rfl | rfl := h
  · cases hmap
  · cases hmap
  · apply gives_string
    rw [Text.utf8ByteSize_ofList]
    apply Nat.le_trans (Text.bytes_trim_le _)
    rwa [← Text.utf8ByteSize_eq_bytes]
  · apply c.gives_argument 0
    rintro pattern v hv text rfl
    cases hv
  · apply c.gives_argument 0
    intro v
    match v with
    | .integer n =>
        simp only
        split
        · nofun
        · apply gives_withinLimit
          intro hlength
          apply gives_string
          rwa [Text.utf8ByteSize_copies]
    | .string s => nofun
    | .boolean b => nofun
    | .double d => nofun
  · apply c.gives_argument 0
    intro pattern
    apply c.gives_argument 1
    intro new
    apply gives_withinLimit
    intro hlength
    apply gives_string
    simp only [Text.utf8ByteSize_eq_bytes] at hlength
    rwa [Text.utf8ByteSize_ofList, ← bytes_replace_eq]

end Member

namespace Context

variable (c : Context) {text name : String} {args : List Node} {scope : Option Scope}

/-- A string that a member gives for a string within the limit is within the limit, or it is
the receiver with its case mapped. -/
theorem within_limit_or_caseMapping {result : String}
    (hreceiver : text.utf8ByteSize ≤ c.limits.maxStringLen.toNat)
    (h : (c.call (.member (.string text) name args scope)).1 = proceed (.string result)) :
  result.utf8ByteSize ≤ c.limits.maxStringLen.toNat
    ∨ ∃ map, Member.caseMapping? name = some map ∧ args = []
      ∧ c.depth < c.limits.maxCallDepth.toNat ∧ result = String.ofList (map text.toList)
  := by
  obtain ⟨rest, body, hroom, hbody, hrun⟩ := exists_run_of_answer h
  obtain ⟨m, hfind, haccepts, rfl⟩ := Store.exists_of_bodyOf_member hbody
  have hm : m ∈ Member.ofString := List.mem_of_find?_eq_some hfind
  obtain rfl := Member.name_of_find? hfind
  cases hmap : Member.caseMapping? m.name with
  | none =>
      left
      have hgives := Member.gives_of_caseMapping_eq_none args.length hm hmap
        ⟨m.name, .string text, scope⟩ hreceiver
      apply hgives.run _ _ _ _ hrun result rfl
  | some map =>
      right
      obtain ⟨harity, hgive⟩ := Member.of_caseMapping args.length hm hmap
      rw [hgive] at hrun
      rw [harity] at haccepts
      refine ⟨map, rfl, ?_, by omega, ?_⟩
      · exact List.eq_nil_of_length_eq_zero (Arity.accepts_exactly.mp haccepts)
      · exact (Value.string.inj (Outcome.proceed.inj (Except.ok.inj hrun))).symm

/-- Where there is room for a call, mapping the case gives the mapped receiver. -/
theorem call_caseMapping {map : List Char → List Char}
    (hmap : Member.caseMapping? name = some map) (hroom : c.depth < c.limits.maxCallDepth.toNat) :
  (c.call (.member (.string text) name [] scope)).1
    = proceed (.string (String.ofList (map text.toList)))
  := by
  obtain ⟨m, hfind⟩ := Member.find?_of_caseMapping hmap
  obtain rfl := Member.name_of_find? hfind
  obtain ⟨harity, hgive⟩ :=
    Member.of_caseMapping 0 (List.mem_of_find?_eq_some hfind) hmap
  have haccepts : m.arity.accepts ([] : List Node).length = true := by
    rw [harity]
    rfl
  have hrun : (c.inside hroom).run [] (m.body ⟨m.name, .string text, scope⟩ 0)
      = (proceed (.string (String.ofList (map text.toList))), c.inside hroom) := by
    rw [hgive]
    apply run_done
  rw [call_member hroom (.string text) scope hfind haccepts hrun]

/-- The strings that a member gives for a string within the limit are within the limit
exactly if, in case the member maps the case and the call is let through, the mapped text is.
They are never more than three times as long as the limit. -/
theorem string_within_limit_iff
    (hreceiver : text.utf8ByteSize ≤ c.limits.maxStringLen.toNat) :
  ((∀ result, (c.call (.member (.string text) name args scope)).1 = proceed (.string result) →
      result.utf8ByteSize ≤ c.limits.maxStringLen.toNat)
    ↔ ∀ map, Member.caseMapping? name = some map → args = [] →
      c.depth < c.limits.maxCallDepth.toNat →
      Text.bytes (map text.toList) ≤ c.limits.maxStringLen.toNat)
  ∧ ∀ result, (c.call (.member (.string text) name args scope)).1 = proceed (.string result) →
      result.utf8ByteSize ≤ 3 * c.limits.maxStringLen.toNat
  := by
  refine ⟨⟨?_, ?_⟩, ?_⟩
  · intro hwithin map hmap hargs hroom
    subst hargs
    rw [← Text.utf8ByteSize_ofList]
    apply hwithin _ (c.call_caseMapping hmap hroom)
  · intro hmapped result hresult
    rcases c.within_limit_or_caseMapping hreceiver hresult with
      hle | ⟨map, hmap, hargs, hroom, rfl⟩
    · exact hle
    · rw [Text.utf8ByteSize_ofList]
      exact hmapped map hmap hargs hroom
  · intro result hresult
    rcases c.within_limit_or_caseMapping hreceiver hresult with
      hle | ⟨map, hmap, -, -, rfl⟩
    · omega
    · rw [Text.utf8ByteSize_eq_bytes] at hreceiver
      have hle := Member.bytes_caseMapping_le hmap text.toList
      rw [Text.utf8ByteSize_ofList]
      omega

/-- The lowercase form of `İ` takes three bytes, so that it is not within a limit of two. -/
theorem string_within_limit_iff_of_dotted_capital :
  ∃ (c : Context) (text : String),
    text.utf8ByteSize ≤ c.limits.maxStringLen.toNat
      ∧ ¬ ∀ result, (c.call (.member (.string text) "lower" [] none)).1
          = proceed (.string result) →
        result.utf8ByteSize ≤ c.limits.maxStringLen.toNat
  := by
  let c := root ⟨1024, 2⟩
  have hreceiver : (String.ofList ['İ']).utf8ByteSize ≤ c.limits.maxStringLen.toNat := by
    rw [Text.utf8ByteSize_ofList]
    decide
  refine ⟨c, String.ofList ['İ'], hreceiver, ?_⟩
  intro hwithin
  have hmapped := (c.string_within_limit_iff hreceiver).1.mp hwithin Text.lower rfl rfl
    (by decide)
  rw [String.toList_ofList] at hmapped
  exact absurd hmapped (by decide)

/-- Not all strings that members give for strings within the limit are within it. -/
theorem not_string_within_limit :
  ¬ ∀ (c : Context) (text name : String) (args : List Node) (scope : Option Scope)
      (result : String),
    text.utf8ByteSize ≤ c.limits.maxStringLen.toNat →
    (c.call (.member (.string text) name args scope)).1 = proceed (.string result) →
      result.utf8ByteSize ≤ c.limits.maxStringLen.toNat
  := by
  intro h
  let c := root ⟨1024, 2⟩
  have hresult : (c.call (.member (.string (String.ofList ['İ'])) "lower" [] none)).1
      = proceed (.string (String.ofList ['i', '\u0307'])) := by
    have hlower : Member.caseMapping? "lower" = some Text.lower := rfl
    rw [c.call_caseMapping hlower (by decide), String.toList_ofList]
    rfl
  have hle := h c _ _ _ _ _ (by rw [Text.utf8ByteSize_ofList]; decide) hresult
  rw [Text.utf8ByteSize_ofList] at hle
  exact absurd hle (by decide)

end Context

end Stencil
