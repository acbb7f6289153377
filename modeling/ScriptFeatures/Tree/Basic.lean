import ScriptFeatures.Tree.Kind

/-! Syntax trees stored as a flat arena. Nodes are numbered in creation order and the root is 0.

* `SyntaxTree.push` adds a node as the last child of an existing one.
* `SyntaxTree.walk` visits every node once, a node before the trees of its children. The nodes still
  to be visited are kept on a list, one is taken off it per step, and so the number of nodes bounds
  the steps. -/

namespace ScriptFeatures.Tree

/-- The number of a node. -/
abbrev NodeId := Nat

structure Node where
  kind : NodeKind
  children : Array NodeId
  deriving Repr, Inhabited, DecidableEq

/-- A tree of nodes; node 0 is the root. -/
structure SyntaxTree where
  nodes : Array Node
  deriving Repr, Inhabited, DecidableEq

namespace SyntaxTree

def new (root : NodeKind) : SyntaxTree :=
  ⟨#[⟨root, #[]⟩]⟩

def root : NodeId := 0

/-- The number of nodes, which is also the number of the next node to be created. -/
def size (t : SyntaxTree) : Nat :=
  t.nodes.size

def isEmpty (t : SyntaxTree) : Bool :=
  t.nodes.isEmpty

def kind? (t : SyntaxTree) (id : NodeId) : Option NodeKind :=
  t.nodes[id]?.map (·.kind)

def children (t : SyntaxTree) (id : NodeId) : List NodeId :=
  match t.nodes[id]? with
  | some node => node.children.toList
  | none => []

/-- Adds a node as the last child of `parent`. The new node has the number `t.size`. -/
def push (t : SyntaxTree) (parent : NodeId) (kind : NodeKind) : SyntaxTree :=
  let id := t.size
  ⟨(t.nodes.modify parent fun node => { node with children := node.children.push id }).push
    ⟨kind, #[]⟩⟩

/-! ## Walking -/

/-- Visits the nodes of `stack` and everything below them, first to last. -/
def walkFrom (t : SyntaxTree) : Nat → List NodeId → Array NodeId → Array NodeId
  | 0, _, visited => visited
  | _ + 1, [], visited => visited
  | fuel + 1, id :: stack, visited =>
    walkFrom t fuel (t.children id ++ stack) (visited.push id)

/-- Every node in pre-order from the root. -/
def walk (t : SyntaxTree) : List NodeId :=
  (t.walkFrom t.size [root] #[]).toList

/-- The kinds of the nodes in walk order. -/
def kinds (t : SyntaxTree) : List NodeKind :=
  t.walk.filterMap t.kind?

/-- How often each kind occurs, in declaration order and without the kinds that do not occur. The
counters have 32 bits and start again from 0 when they are full. -/
def counts (t : SyntaxTree) : List (NodeKind × Nat) :=
  let kinds := t.kinds
  NodeKind.all.filterMap fun k =>
    let n := kinds.count k
    if n = 0 then none else some (k, n % UInt32.size)

end SyntaxTree

end ScriptFeatures.Tree
