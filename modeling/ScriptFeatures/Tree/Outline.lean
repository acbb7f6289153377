import ScriptFeatures.Tree.Basic

/-! How deep a tree goes, and its outline on one line: the label of a node, followed by the outlines
of its children between parentheses if it has any. -/

namespace ScriptFeatures.Tree.SyntaxTree

/-- The deepest level met while visiting the nodes of `stack`, each with its level, and everything
below them; `deepest` is the deepest level met before. -/
def depthFrom (t : SyntaxTree) : Nat → List (NodeId × Nat) → Nat → Nat
  | 0, _, deepest => deepest
  | _ + 1, [], deepest => deepest
  | fuel + 1, (id, level) :: stack, deepest =>
    depthFrom t fuel ((t.children id).reverse.map (·, level + 1) ++ stack) (max deepest level)

/-- The number of nodes on the longest path from the root to a leaf. -/
def depth (t : SyntaxTree) : Nat :=
  t.depthFrom t.size [(root, 1)] 0

/-- The outline of the part of a tree below a node, down to a depth. -/
def outlineAt (t : SyntaxTree) : Nat → NodeId → String
  | 0, _ => ""
  | depth + 1, id =>
    let label := (t.kind? id).elim "" NodeKind.label
    match t.children id with
    | [] => label
    | children => label ++ "(" ++ " ".intercalate (children.map (t.outlineAt depth)) ++ ")"

def outline (t : SyntaxTree) : String :=
  t.outlineAt t.size root

end ScriptFeatures.Tree.SyntaxTree
