import Stencil.Node.Basic
import Stencil.Text.Quoted

/-!
# Outlines

The outline of a tree has one line for each node, in the order in which the nodes are
reached from the top.  A line holds the label of its node, after a mark for each level
above it.
-/

namespace Stencil.Node

/-- One line that says what a node is. -/
def label : Node → String
  | literal (.string text) => "Literal(string " ++ Text.quoted text ++ ")"
  | literal v => "Literal(" ++ v.kindName ++ " " ++ v.display ++ ")"
  | reference name => "Variable(" ++ name ++ ")"
  | assignment name _ => "Assign(" ++ name ++ ")"
  | dot _ member _ _ => "Dot(." ++ member ++ ")"
  | call name _ _ => "Function(" ++ name ++ ")"
  | binary op _ _ => "Binary(" ++ op.symbol ++ ")"
  | negation _ => "Not"
  | root _ => "Root"
  | block _ (some s) => "Block(" ++ s.text ++ ")"
  | block _ none => "Block"
  | returning _ _ => "Return"
  | terminating _ _ => "Terminate"

/-- Lines moved one level down. -/
def indent (lines : List String) : List String := lines.map ("| " ++ ·)

mutual

/-- The lines of the outline of a tree. -/
def outlineLines : Node → List String
  | n@(literal _) => ["- " ++ n.label]
  | n@(reference _) => ["- " ++ n.label]
  | n@(assignment _ expression) => ("- " ++ n.label) :: indent expression.outlineLines
  | n@(dot receiver _ args _) =>
      ("- " ++ n.label) :: (indent receiver.outlineLines ++ outlinesOf args)
  | n@(call _ args _) => ("- " ++ n.label) :: outlinesOf args
  | n@(binary _ left right) =>
      ("- " ++ n.label) :: (indent left.outlineLines ++ indent right.outlineLines)
  | n@(negation operand) => ("- " ++ n.label) :: indent operand.outlineLines
  | n@(root children) => ("- " ++ n.label) :: outlinesOf children
  | n@(block children _) => ("- " ++ n.label) :: outlinesOf children
  | n@(returning expression _) => ("- " ++ n.label) :: indent expression.outlineLines
  | n@(terminating expression _) => ("- " ++ n.label) :: indent expression.outlineLines

/-- The lines of the outlines of several trees, one level down. -/
def outlinesOf : List Node → List String
  | [] => []
  | n :: rest => indent n.outlineLines ++ outlinesOf rest

end

/-- The outline of a tree. -/
def outline (n : Node) : String := String.intercalate "\n" n.outlineLines

theorem outlinesOf_eq (nodes : List Node) :
  outlinesOf nodes = nodes.flatMap fun n => indent n.outlineLines
  := by
  induction nodes with
  | nil => rfl
  | cons n rest ih => rw [outlinesOf, ih, List.flatMap_cons]

/-- The outline of a tree is the label of its node above the outlines of its subtrees. -/
theorem outlineLines_eq (n : Node) :
  n.outlineLines
    = ("- " ++ n.label) :: n.children.flatMap fun child => indent child.outlineLines
  := by
  cases n <;> simp [outlineLines, children, outlinesOf_eq]

end Stencil.Node
