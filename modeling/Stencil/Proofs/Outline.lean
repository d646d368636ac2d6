import Stencil.Node.Outline
import Stencil.Proofs.Text.Lines
import Stencil.Proofs.Visits

/-!
# Outlines as pictures

The outline of a tree has one line for each of its places, in the order of the listing; the line shows
how deep the place is, and the label of the node there.  What an outline shows depends only on the
labels of the tree, and they can be read from it again: the nodes inside of a node are those on the
following lines that are deeper, up to the first that is not (`LabelTree.ofEntries_entries`).  So trees
have the same outline exactly if they have the same labels in the same places
(`Node.outline_faithful`).

A name with a line feed takes several lines, and what comes after the line feed may look like a part of
the tree, so names are assumed to have none.  Strings may have line feeds, since labels quote them.
-/

namespace Stencil

/-! ### Trees of labels -/

/-- A tree of labels. -/
inductive LabelTree where
  | node (label : String) (children : List LabelTree)

/-- What a line of an outline says: how deep a node is, and its label. -/
structure OutlineEntry where
  depth : Nat
  label : String

namespace LabelTree

theorem induction_on_children {P : LabelTree → Prop}
    (h : ∀ label children, (∀ child ∈ children, P child) → P (node label children))
    (tree : LabelTree) :
  P tree
  := by
  induction hsize : sizeOf tree using Nat.strongRecOn generalizing tree with
  | _ size ih =>
      subst hsize
      cases tree with
      | node label children =>
          apply h
          intro child hchild
          have hlt := List.sizeOf_lt_of_mem hchild
          apply ih (sizeOf child) _ child rfl
          simp only [node.sizeOf_spec]
          omega

mutual

/-- The entries of a tree, where its depth is given.  Each node comes before its subtrees. -/
def entries (depth : Nat) : LabelTree → List OutlineEntry
  | node label children => ⟨depth, label⟩ :: entriesOfAll (depth + 1) children

/-- The entries of several trees of the same depth. -/
def entriesOfAll (depth : Nat) : List LabelTree → List OutlineEntry
  | [] => []
  | tree :: rest => entries depth tree ++ entriesOfAll depth rest

end

theorem entriesOfAll_eq (depth : Nat) (trees : List LabelTree) :
  entriesOfAll depth trees = trees.flatMap (entries depth)
  := by
  induction trees with
  | nil => rfl
  | cons tree rest ih => rw [entriesOfAll, ih, List.flatMap_cons]

/-- Whether a tree is deeper than a node. -/
def isDeeper (depth : Nat) (tree : Nat × LabelTree) : Bool := depth < tree.1

/-- The trees that entries stand for, with their depths.  The subtrees of a node are the trees right
after it that are deeper. -/
def ofEntries : List OutlineEntry → List (Nat × LabelTree)
  | [] => []
  | e :: rest =>
      let trees := ofEntries rest
      (e.depth, node e.label ((trees.takeWhile (isDeeper e.depth)).map Prod.snd))
        :: trees.dropWhile (isDeeper e.depth)

/-- The trees do not start with one that is deeper. -/
def StartsWithin (depth : Nat) (trees : List (Nat × LabelTree)) : Prop :=
  ∀ tree ∈ trees.head?, tree.1 ≤ depth

theorem StartsWithin.mono {depth depth' : Nat} {trees : List (Nat × LabelTree)}
    (h : StartsWithin depth trees) (hle : depth ≤ depth') :
  StartsWithin depth' trees
  := fun tree htree => (h tree htree).trans hle

theorem StartsWithin.takeWhile_dropWhile {depth : Nat} {trees : List (Nat × LabelTree)}
    (h : StartsWithin depth trees) :
  trees.takeWhile (isDeeper depth) = [] ∧ trees.dropWhile (isDeeper depth) = trees
  := by
  cases trees with
  | nil => exact ⟨rfl, rfl⟩
  | cons tree _ =>
      have hdepth : isDeeper depth tree = false := by
        simpa [isDeeper] using h tree rfl
      simp [hdepth]

/-- Entries of trees of the same depth stand for these trees, if this holds of each of them. -/
theorem ofEntries_entriesOfAll {depth : Nat} {trees : List LabelTree}
    (h : ∀ tree ∈ trees, ∀ rest, StartsWithin depth (ofEntries rest) →
      ofEntries (entries depth tree ++ rest) = (depth, tree) :: ofEntries rest)
    {rest : List OutlineEntry} (hrest : StartsWithin depth (ofEntries rest)) :
  ofEntries (entriesOfAll depth trees ++ rest)
    = trees.map (depth, ·) ++ ofEntries rest
  := by
  induction trees with
  | nil => rfl
  | cons tree trees ih =>
      obtain ⟨htree, htrees⟩ := List.forall_mem_cons.mp h
      have hnext := ih htrees
      have hwithin : StartsWithin depth (ofEntries (entriesOfAll depth trees ++ rest)) := by
        rw [hnext]
        cases trees with
        | nil => exact hrest
        | cons next _ => simp [StartsWithin]
      rw [entriesOfAll, List.append_assoc, htree _ hwithin, hnext]
      rfl

/-- The entries of a tree stand for it, whatever comes after them at its depth or above. -/
theorem ofEntries_entries (tree : LabelTree) {depth : Nat} {rest : List OutlineEntry}
    (hrest : StartsWithin depth (ofEntries rest)) :
  ofEntries (entries depth tree ++ rest) = (depth, tree) :: ofEntries rest
  := by
  induction tree using induction_on_children generalizing depth rest with
  | h label children ih =>
      have hchildren := ofEntries_entriesOfAll (fun child hchild _ => ih child hchild)
        (hrest.mono (Nat.le_succ depth))
      -- The trees of the children are deeper, and the one that comes after them is not.
      have hinside : ∀ tree ∈ children.map (depth + 1, ·), isDeeper depth tree = true := by
        simp [isDeeper]
      obtain ⟨htake, hdrop⟩ := hrest.takeWhile_dropWhile
      rw [entries, List.cons_append, ofEntries, hchildren]
      simp only
      rw [List.takeWhile_append_of_pos hinside, List.dropWhile_append_of_pos hinside, htake, hdrop]
      simp

end LabelTree

/-! ### Lines -/

namespace OutlineEntry

/-- The marks at the start of a line, one for each level above. -/
def marks (depth : Nat) : String := String.join (List.replicate depth "| ")

/-- The line that says this. -/
def line (e : OutlineEntry) : String := marks e.depth ++ ("- " ++ e.label)

/-- What a line says. -/
def ofLine? : List Char → Option OutlineEntry
  | '|' :: ' ' :: rest => (ofLine? rest).map fun e => ⟨e.depth + 1, e.label⟩
  | '-' :: ' ' :: rest => some ⟨0, String.ofList rest⟩
  | _ => none

theorem marks_succ (depth : Nat) :
  marks (depth + 1) = marks depth ++ "| "
  := by simp [marks, List.replicate_succ']

theorem ofLine?_line (e : OutlineEntry) :
  ofLine? e.line.toList = some e
  := by
  obtain ⟨depth, label⟩ := e
  induction depth with
  | zero => simp [line, marks, ofLine?]
  | succ depth ih =>
      have hline : (line ⟨depth + 1, label⟩).toList = '|' :: ' ' :: (line ⟨depth, label⟩).toList := by
        simp [line, marks, List.replicate_succ]
      rw [hline, ofLine?, ih]
      rfl

/-- What lines say. -/
def ofLines? (lines : List String) : Option (List OutlineEntry) :=
  lines.mapM fun line => ofLine? line.toList

theorem ofLines?_map_line (entries : List OutlineEntry) :
  ofLines? (entries.map line) = some entries
  := by
  induction entries with
  | nil => rfl
  | cons e rest ih =>
      rw [ofLines?] at *
      rw [List.map_cons, List.mapM_cons, ofLine?_line, ih]
      rfl

theorem isLine_line {e : OutlineEntry} (h : Text.IsLine e.label.toList) :
  Text.IsLine e.line.toList
  := by
  have hmarks : Text.IsLine (marks e.depth).toList := by
    generalize e.depth = depth
    induction depth with
    | zero => decide
    | succ depth ih =>
        rw [marks_succ, String.toList_append, Text.isLine_append]
        exact ⟨ih, by decide⟩
  rw [line, String.toList_append, String.toList_append, Text.isLine_append, Text.isLine_append]
  exact ⟨hmarks, by decide, h⟩

end OutlineEntry

namespace LabelTree

/-- The outline that shows the labels. -/
def outline (tree : LabelTree) : String :=
  String.intercalate "\n" ((entries 0 tree).map OutlineEntry.line)

/-- The labels that an outline shows. -/
def ofOutline? (text : String) : Option LabelTree := do
  let entries ← OutlineEntry.ofLines? (Text.lines text)
  (ofEntries entries).head?.map Prod.snd

variable {tree : LabelTree}

theorem lines_outline (h : ∀ e ∈ entries 0 tree, Text.IsLine e.label.toList) :
  Text.lines tree.outline = (entries 0 tree).map OutlineEntry.line
  := by
  apply Text.lines_intercalate
  · cases tree
    rw [entries, List.map_cons]
    apply List.cons_ne_nil
  · rw [List.forall_mem_map]
    intro e he
    apply OutlineEntry.isLine_line (h e he)

theorem ofOutline?_outline (h : ∀ e ∈ entries 0 tree, Text.IsLine e.label.toList) :
  ofOutline? tree.outline = some tree
  := by
  have htrees : ofEntries (entries 0 tree ++ []) = [(0, tree)] := by
    apply tree.ofEntries_entries
    rintro _ ⟨⟩
  rw [List.append_nil] at htrees
  rw [ofOutline?, lines_outline h, OutlineEntry.ofLines?_map_line]
  simp [htrees]

end LabelTree

/-! ### Places and their labels -/

namespace Node

/-- The places of the whole tree. -/
def places (n : Node) : List Place := Place.listing ⟨some [], n⟩

/-- The name that the label of a node shows. -/
def name? : Node → Option String
  | reference name => some name
  | assignment name _ => some name
  | dot _ member _ _ => some member
  | call name _ _ => some name
  | _ => none

/-- No name in the tree has a line feed. -/
def NamesAreLines (n : Node) : Prop :=
  ∀ m enclosing, Occurs m enclosing n → ∀ name, m.name? = some name → Text.IsLine name.toList

theorem namesAreLines_iff {n : Node} :
  n.NamesAreLines ↔ (∀ name, n.name? = some name → Text.IsLine name.toList)
    ∧ ∀ child ∈ n.children, child.NamesAreLines
  := by
  constructor
  · intro h
    exact ⟨h n [] .here, fun child hchild m enclosing hoccurs => h m _ (.inside hchild hoccurs)⟩
  · rintro ⟨hown, hchildren⟩ m enclosing hoccurs
    cases hoccurs with
    | here => exact hown
    | inside hchild hinside => exact hchildren _ hchild m _ hinside

/-- The labels of a tree in their places. -/
def labels (n : Node) : LabelTree :=
  .node n.label (n.children.attach.map fun child => child.val.labels)
termination_by n.size
decreasing_by exact size_lt_of_mem_children child.property

theorem labels_eq (n : Node) :
  n.labels = .node n.label (n.children.map labels)
  := by
  rw [labels]
  simp

theorem length_flatMap_eq_sizeOfAll {α β : Type} {items : List α} {node : α → Node}
    {f : α → List β} (h : ∀ a ∈ items, (f a).length = (node a).size) :
  (items.flatMap f).length = sizeOfAll (items.map node)
  := by
  induction items with
  | nil => rfl
  | cons a rest ih =>
      obtain ⟨ha, hrest⟩ := List.forall_mem_cons.mp h
      rw [List.flatMap_cons, List.length_append, ha, ih hrest, List.map_cons, sizeOfAll]

theorem isLine_label_literal (v : Value) :
  Text.IsLine (literal v).label.toList
  := by
  by_cases hkind : v.kind = .string
  · cases v with
    | string text => apply Text.isLine_framed (by decide) (Text.isLine_quoted text) (by decide)
    | boolean _ | double _ | integer _ => contradiction
  · have hlabel : (literal v).label = "Literal(" ++ v.kindName ++ " " ++ v.display ++ ")" := by
      cases v with
      | string text => contradiction
      | boolean _ | double _ | integer _ => rfl
    have hname : Text.IsLine v.kindName.toList := by
      rw [Value.kindName]
      cases v.kind <;> decide
    rw [hlabel]
    apply Text.isLine_framed _ (Text.isLine_display hkind) (by decide)
    apply Text.isLine_framed (by decide) hname (by decide)

/-- The label of a node has no line feed, unless its name has one. -/
theorem isLine_label {n : Node} (h : ∀ name, n.name? = some name → Text.IsLine name.toList) :
  Text.IsLine n.label.toList
  := by
  cases n with
  | literal v => apply isLine_label_literal
  | reference name => apply Text.isLine_framed (by decide) (h name rfl) (by decide)
  | assignment name expression => apply Text.isLine_framed (by decide) (h name rfl) (by decide)
  | dot receiver member args scope => apply Text.isLine_framed (by decide) (h member rfl) (by decide)
  | call name args scope => apply Text.isLine_framed (by decide) (h name rfl) (by decide)
  | binary op left right =>
      have hsymbol : Text.IsLine op.symbol.toList := by
        cases op with
        | gate g => cases g <;> decide
        | _ => decide
      apply Text.isLine_framed (by decide) hsymbol (by decide)
  | block children scope =>
      cases scope with
      | none => exact (by decide : Text.IsLine "Block".toList)
      | some s =>
          have hnumber : Text.IsLine (toString s.number).toList :=
            Text.isLine_toString_nat s.number.toNat
          have hscope : Text.IsLine s.text.toList := by
            rw [Scope.text, String.toList_append, Text.isLine_append]
            exact ⟨by decide, hnumber⟩
          apply Text.isLine_framed (by decide) hscope (by decide)
  | negation operand => exact (by decide : Text.IsLine "Not".toList)
  | root children => exact (by decide : Text.IsLine "Root".toList)
  | returning expression scope => exact (by decide : Text.IsLine "Return".toList)
  | terminating expression scope => exact (by decide : Text.IsLine "Terminate".toList)

end Node

namespace Place

/-- How many nodes a place is inside of. -/
def depth (p : Place) : Nat := (p.path.getD []).length

/-- What the outline says of a place. -/
def entry (p : Place) : OutlineEntry := ⟨p.depth, p.node.label⟩

theorem map_node_child (p : Place) :
  (List.finRange p.node.children.length).map (fun i => (p.child i).node) = p.node.children
  := List.map_get_finRange p.node.children

theorem length_listing (p : Place) :
  p.listing.length = p.node.size
  := by
  induction p using induction_on_children with
  | h p ih =>
      have hinside := Node.length_flatMap_eq_sizeOfAll fun i
        (_ : i ∈ List.finRange p.node.children.length) => ih i
      rw [listing, List.length_cons, hinside, map_node_child, Node.size_eq]

/-- The entries of the labels of a place are what the outline says of the listed places. -/
theorem map_entry_listing {p : Place} {path : List Nat} (hpath : p.path = some path) :
  p.listing.map entry = LabelTree.entries path.length p.node.labels
  := by
  induction p using induction_on_children generalizing path with
  | h p ih =>
      have hown : p.entry = ⟨path.length, p.node.label⟩ := by
        rw [entry, depth, hpath]
        rfl
      rw [listing, List.map_cons, List.map_flatMap, hown, Node.labels_eq, LabelTree.entries,
        LabelTree.entriesOfAll_eq, List.flatMap_map]
      conv_rhs => rw [← p.map_node_child, List.flatMap_map]
      simp only [ih _ (path_child hpath _), List.length_append, List.length_singleton]

end Place

namespace Node

/-- The lines of an outline are those of the labels. -/
theorem map_marks_outlineLines (n : Node) (depth : Nat) :
  n.outlineLines.map (OutlineEntry.marks depth ++ ·)
    = (LabelTree.entries depth n.labels).map OutlineEntry.line
  := by
  induction n using induction_on_children generalizing depth with
  | h n ih =>
      rw [outlineLines_eq, labels_eq, LabelTree.entries, LabelTree.entriesOfAll_eq, List.map_cons,
        List.map_cons, List.map_flatMap, List.flatMap_map, List.map_flatMap]
      congr 1
      apply List.flatMap_congr
      intro child hchild
      rw [← ih child hchild, indent, List.map_map]
      simp only [Function.comp_def, OutlineEntry.marks_succ, String.append_assoc]

/-- The outline of a tree is that of its labels. -/
theorem outline_eq (n : Node) :
  n.outline = n.labels.outline
  := by
  have hlines := n.map_marks_outlineLines 0
  have hmark : (OutlineEntry.marks 0 ++ ·) = id := funext fun line => String.empty_append
  rw [hmark, List.map_id] at hlines
  rw [outline, hlines, LabelTree.outline]

variable {n : Node}

/-- The entries of the labels of a tree are what the outline says of its places. -/
theorem map_entry_places (n : Node) :
  n.places.map Place.entry = LabelTree.entries 0 n.labels
  := by
  have hpath : (Place.mk (some []) n).path = some [] := rfl
  apply Place.map_entry_listing hpath

theorem NamesAreLines.isLine_entries (h : n.NamesAreLines) :
  ∀ e ∈ LabelTree.entries 0 n.labels, Text.IsLine e.label.toList
  := by
  rw [← map_entry_places, List.forall_mem_map]
  intro p hp
  obtain ⟨enclosing, hoccurs⟩ := Place.exists_occurs_of_mem_listing hp
  apply isLine_label (h p.node enclosing hoccurs)

/-- The outline of a tree without line feeds in its names has one line for each place, in the order of
the listing: as many marks as there are levels above, and the label.  The labels can be read from the
outline, so that trees have the same outline exactly if they have the same labels in the same places. -/
theorem outline_faithful (h : n.NamesAreLines) :
  Text.lines n.outline = n.places.map (fun p => p.entry.line)
    ∧ n.places.length = n.size ∧ n.places.Nodup
    ∧ LabelTree.ofOutline? n.outline = some n.labels
    ∧ ∀ m : Node, m.NamesAreLines → (n.outline = m.outline ↔ n.labels = m.labels)
  := by
  have hread {m : Node} (hm : m.NamesAreLines) :
      LabelTree.ofOutline? m.outline = some m.labels := by
    rw [outline_eq, LabelTree.ofOutline?_outline hm.isLine_entries]
  refine ⟨?_, Place.length_listing _, Place.nodup_listing rfl, hread h, ?_⟩
  · rw [outline_eq, LabelTree.lines_outline h.isLine_entries, ← map_entry_places, List.map_map]
    rfl
  · intro m hm
    constructor
    · intro houtline
      apply Option.some.inj
      rw [← hread h, houtline, hread hm]
    · intro hlabels
      rw [outline_eq, outline_eq, hlabels]

/-- Two trees with the same labels, one of which has a scope, and line feeds and marks in texts and
names. -/
theorem outline_faithful_of_scope :
  ∃ n m : Node, n.NamesAreLines ∧ m.NamesAreLines ∧ n ≠ m ∧ n.outline = m.outline
    ∧ n.outline = "- Function(| - f)\n| - Literal(string \"\\n| - \")"
    ∧ LabelTree.ofOutline? n.outline = some n.labels
  := by
  let tree (scope : Option Scope) : Node := .call "| - f" [.literal (.string "\n| - ")] scope
  have htext : (literal (.string "\n| - ")).NamesAreLines := by
    rw [namesAreLines_iff]
    constructor
    · rintro _ ⟨⟩
    · simp [children]
  have hnames : ∀ scope, (tree scope).NamesAreLines := by
    intro scope
    rw [namesAreLines_iff]
    constructor
    · rintro _ ⟨⟩
      decide
    · exact List.forall_mem_singleton.mpr htext
  obtain ⟨-, -, -, hread, hiff⟩ := outline_faithful (hnames none)
  have hlabels : (tree none).labels = (tree (some ⟨0⟩)).labels := by
    rw [labels_eq, labels_eq]
    rfl
  exact ⟨tree none, tree (some ⟨0⟩), hnames _, hnames _, by simp [tree],
    (hiff _ (hnames _)).mpr hlabels, rfl, hread⟩

end Node

end Stencil
