import Stencil.Node.Basic

/-!
# Trees

A tree has one node more than all its subtrees together, so that what holds of a node
whenever it holds of its subtrees holds of all nodes (`Node.induction_on_children`).  What a tree
shows of its nodes, though some of them hide what is inside, can be said either by recursion on
the tree or by where the nodes occur (`Node.exposed_iff`).
-/

namespace Stencil.Node

mutual

/-- The number of nodes of a tree. -/
def size : Node → Nat
  | literal _ => 1
  | reference _ => 1
  | assignment _ expression => expression.size + 1
  | dot receiver _ args _ => receiver.size + sizeOfAll args + 1
  | call _ args _ => sizeOfAll args + 1
  | binary _ left right => left.size + right.size + 1
  | negation operand => operand.size + 1
  | root children => sizeOfAll children + 1
  | block children _ => sizeOfAll children + 1
  | returning expression _ => expression.size + 1
  | terminating expression _ => expression.size + 1

/-- The number of nodes of several trees. -/
def sizeOfAll : List Node → Nat
  | [] => 0
  | n :: rest => n.size + sizeOfAll rest

end

theorem size_eq (n : Node) :
  n.size = sizeOfAll n.children + 1
  := by cases n <;> simp [size, children, sizeOfAll]

theorem size_le_sizeOfAll {n : Node} {nodes : List Node} (h : n ∈ nodes) :
  n.size ≤ sizeOfAll nodes
  := by
  induction nodes with
  | nil => cases h
  | cons m rest ih =>
      rw [sizeOfAll]
      rcases List.mem_cons.mp h with rfl | hrest
      · apply Nat.le_add_right
      · apply Nat.le_trans (ih hrest) (Nat.le_add_left _ _)

/-- A subtree is smaller. -/
theorem size_lt_of_mem_children {n child : Node} (h : child ∈ n.children) :
  child.size < n.size
  := by
  rw [n.size_eq]
  apply Nat.lt_succ_of_le (size_le_sizeOfAll h)

/-- What holds of every node of whose subtrees it holds, holds of all nodes. -/
theorem induction_on_children {P : Node → Prop}
    (h : ∀ n : Node, (∀ child ∈ n.children, P child) → P n) (n : Node) :
  P n
  := by
  induction hsize : n.size using Nat.strongRecOn generalizing n with
  | _ size ih =>
      apply h
      intro child hchild
      subst hsize
      apply ih child.size (size_lt_of_mem_children hchild) child rfl

/-! ### Occurrences -/

/-- The node occurs in the tree, inside the enclosing nodes, the innermost of which comes
first. -/
inductive Occurs (m : Node) : (enclosing : List Node) → (n : Node) → Prop where
  | here : Occurs m [] m
  | inside {n child : Node} {enclosing : List Node} (hchild : child ∈ n.children)
      (h : Occurs m enclosing child) : Occurs m (enclosing ++ [n]) n

/-- What a tree shows of its nodes, where some of them hide what is inside: `exposed` holds of a
tree exactly if `own` holds of a node that occurs in it and no enclosing node hides it. -/
theorem exposed_iff {exposed own hides : Node → Prop}
    (h : ∀ n, exposed n ↔ own n ∨ (∃ child ∈ n.children, exposed child) ∧ ¬ hides n) {n : Node} :
  exposed n
    ↔ ∃ m enclosing, Occurs m enclosing n ∧ own m ∧ ∀ outer ∈ enclosing, ¬ hides outer
  := by
  constructor
  · intro hexposed
    induction n using induction_on_children with
    | h n ih =>
        rcases (h n).mp hexposed with hown | ⟨⟨child, hchild, hinside⟩, hopen⟩
        · exact ⟨n, [], .here, hown, nofun⟩
        · obtain ⟨m, enclosing, hoccurs, hown, houter⟩ := ih child hchild hinside
          refine ⟨m, enclosing ++ [n], .inside hchild hoccurs, hown, ?_⟩
          rw [List.forall_mem_append, List.forall_mem_singleton]
          exact ⟨houter, hopen⟩
  · rintro ⟨m, enclosing, hoccurs, hown, houter⟩
    induction hoccurs with
    | here => exact (h _).mpr (.inl hown)
    | inside hchild _ ih =>
        rw [List.forall_mem_append, List.forall_mem_singleton] at houter
        exact (h _).mpr (.inr ⟨⟨_, hchild, ih houter.1⟩, houter.2⟩)

end Stencil.Node
