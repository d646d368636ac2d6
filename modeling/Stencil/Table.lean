/-!
# Tables

A table binds names.  Looking a name up gives what was bound to it last.
-/

namespace Stencil

/-- Names and what is bound to them; every name occurs at most once. -/
structure Table (α : Type) where
  entries : List (String × α) := []

namespace Table

variable {α : Type}

/-- The table that binds nothing. -/
def empty : Table α := {}

/-- What is bound to a name. -/
def get? (t : Table α) (name : String) : Option α := t.entries.lookup name

/-- Whether something is bound to a name. -/
def contains (t : Table α) (name : String) : Bool := (t.get? name).isSome

/-- The entries with `name` bound to `a`, in its old place if it has one. -/
def insertEntry (name : String) (a : α) : List (String × α) → List (String × α)
  | [] => [(name, a)]
  | (other, b) :: rest =>
      if name = other then (name, a) :: rest else (other, b) :: insertEntry name a rest

/-- The table with `name` bound to `a`. -/
def insert (t : Table α) (name : String) (a : α) : Table α := ⟨insertEntry name a t.entries⟩

/-- The bound names, in the order of their characters. -/
def names (t : Table α) : List String :=
  (t.entries.map Prod.fst).mergeSort fun a b => decide (a ≤ b)

@[simp]
theorem get?_empty (name : String) :
  (empty : Table α).get? name = none
  := rfl

theorem lookup_insertEntry (name other : String) (a : α) (entries : List (String × α)) :
  (insertEntry name a entries).lookup other
    = if other = name then some a else entries.lookup other
  := by
  induction entries with
  | nil =>
      rw [insertEntry, List.lookup_cons, List.lookup_nil]
      by_cases h : other = name
      · simp [h]
      · simp [beq_eq_false_iff_ne.mpr h, h]
  | cons entry rest ih =>
      obtain ⟨n, b⟩ := entry
      rw [insertEntry]
      by_cases hn : name = n
      · subst hn
        rw [if_pos rfl, List.lookup_cons, List.lookup_cons]
        by_cases h : other = name
        · simp [h]
        · simp [beq_eq_false_iff_ne.mpr h, h]
      · rw [if_neg hn, List.lookup_cons, List.lookup_cons, ih]
        by_cases ho : other = n
        · subst ho
          simp [Ne.symm hn]
        · simp [beq_eq_false_iff_ne.mpr ho]

@[simp]
theorem get?_insert (t : Table α) (name other : String) (a : α) :
  (t.insert name a).get? other = if other = name then some a else t.get? other
  := lookup_insertEntry name other a t.entries

@[simp]
theorem contains_insert (t : Table α) (name other : String) (a : α) :
  (t.insert name a).contains other = (decide (other = name) || t.contains other)
  := by
  by_cases h : other = name <;> simp [contains, h]

end Table

end Stencil
