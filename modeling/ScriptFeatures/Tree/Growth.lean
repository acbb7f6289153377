import ScriptFeatures.Tree.Basic

/-! Growing a tree under a depth limit. A `Growth` says what is to be added below a node; the
`Planter` adds it while it keeps the path from the root to the current node.

Nodes enter the tree by three routes:

* `Growth.leaf`: a childless node below the current one, added without a look at the limit;
* `Growth.node`: a node that is entered, so the path with it must not exceed the limit;
* `Growth.loopVariable`: the two nodes of a variable that a loop head declares, entered together. -/

namespace ScriptFeatures.Tree

/-- What is to be added below a node. -/
inductive Growth
  | leaf (kind : NodeKind)
  | node (kind : NodeKind) (children : List Growth)
  | loopVariable (children : List Growth)
  deriving Repr, Inhabited

/-- A tree under construction: the path from the root to the current node, last node last. -/
structure Planter where
  tree : SyntaxTree
  path : Array NodeId
  deriving Repr, Inhabited

namespace Planter

def new (root : NodeKind) : Planter :=
  ⟨.new root, #[SyntaxTree.root]⟩

def current (p : Planter) : NodeId :=
  p.path.back?.getD SyntaxTree.root

/-- Adds a childless node below the current one. -/
def leaf (p : Planter) (kind : NodeKind) : Planter :=
  let parent := p.current
  { p with tree := p.tree.push parent kind }

/-- Adds a node below the current one and makes it the current one. -/
def enter (p : Planter) (kind : NodeKind) : Planter :=
  let parent := p.current
  let id := p.tree.size
  ⟨p.tree.push parent kind, p.path.push id⟩

/-- Goes back to the parent of the current node. -/
def leave (p : Planter) : Planter :=
  { p with path := p.path.pop }

end Planter

mutual

/-- Adds a growth below the current node; `none` as soon as a path would hold more than `limit`
nodes. -/
def Growth.plant (limit : Nat) : Growth → Planter → Option Planter
  | .leaf kind, p => some (p.leaf kind)
  | .node kind children, p =>
    if limit ≤ p.path.size then none
    else (Growth.plantAll limit children (p.enter kind)).map Planter.leave
  | .loopVariable children, p =>
    if limit ≤ p.path.size + 1 then none
    else
      let inside := (p.enter .variableDeclaration).enter .variableDeclarator
      (Growth.plantAll limit children inside).map fun q => q.leave.leave

/-- Adds growths below the current node in order. -/
def Growth.plantAll (limit : Nat) : List Growth → Planter → Option Planter
  | [], p => some p
  | g :: rest, p =>
    match Growth.plant limit g p with
    | none => none
    | some q => Growth.plantAll limit rest q

end

/-- The tree with the given growths below its root, if no path has more than `limit` nodes. -/
def SyntaxTree.grow? (root : NodeKind) (limit : Nat) (growths : List Growth) :
    Option SyntaxTree :=
  (Growth.plantAll limit growths (.new root)).map (·.tree)

end ScriptFeatures.Tree
