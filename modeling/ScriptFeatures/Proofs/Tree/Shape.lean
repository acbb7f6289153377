import ScriptFeatures.Proofs.Tree.Growth

/-! The ESTree shape of a tree: which nodes may lie below which.

* `NodeKind.Admits` is the law for one edge, `SyntaxTree.ESTree` the shape of a whole tree.
* `SyntaxTree.Regular` is kept by every push that the law admits (`Regular.push`). It leaves out
  that a declaration has a declarator, which no declaration has when it is entered.
* `Growth.Suits` says that a growth keeps to the law below nodes of a kind. Planting it then keeps
  the shape, and only the current node may be a declaration that waits (`Suits.tends_sprout`). -/

namespace ScriptFeatures.Tree

/-! ## The law -/

namespace NodeKind

/-- The only kinds that a node of a kind may be a child of, if not every kind will do. -/
def owners? : NodeKind → Option (List NodeKind)
  | program => some []
  | variableDeclarator => some [variableDeclaration]
  | switchCase => some [switchStatement]
  | catchClause => some [tryStatement]
  | property => some [objectExpression]
  | methodDefinition | propertyDefinition | staticBlock => some [classDeclaration, classExpression]
  | templateElement => some [templateLiteral]
  | _ => none

/-- The kinds whose nodes have no children. -/
def childless : List NodeKind :=
  [identifier, templateElement, classBody, superReference]

/-- Nodes of kind `parent` may have children of kind `child`. -/
def Admits (parent child : NodeKind) : Prop :=
  (∀ owners ∈ child.owners?, parent ∈ owners) ∧ parent ∉ childless ∧
    (parent = variableDeclaration → child = variableDeclarator)

instance (parent child : NodeKind) : Decidable (parent.Admits child) :=
  inferInstanceAs (Decidable (_ ∧ _ ∧ _))

/-- Nodes of a kind may have children of every kind that may be anywhere. -/
def Open (parent : NodeKind) : Prop :=
  parent ∉ childless ∧ parent ≠ variableDeclaration

instance (parent : NodeKind) : Decidable parent.Open :=
  inferInstanceAs (Decidable (_ ∧ _))

theorem Open.admits {parent child : NodeKind} (h : parent.Open) (hchild : child.owners? = none) :
    parent.Admits child := by
  refine ⟨?_, h.1, fun hparent => absurd hparent h.2⟩
  rw [hchild]
  exact fun _ howners => nomatch howners

end NodeKind

namespace SyntaxTree

/-- A tree has the shape of an ESTree program. -/
structure ESTree (t : SyntaxTree) : Prop where
  /-- Every node but the root is a child of one node, which was created before it. -/
  parent : ∀ id < t.size, id ≠ root → ∃ p < id, ∀ q, id ∈ t.children q ↔ q = p
  program : ∀ id, t.kind? id = some .program ↔ id = root
  declarator : ∀ p, ∀ id ∈ t.children p,
    (t.kind? id = some .variableDeclarator ↔ t.kind? p = some .variableDeclaration)
  declaration : ∀ id, t.kind? id = some .variableDeclaration → t.children id ≠ []
  owned : ∀ p, ∀ id ∈ t.children p, ∀ kind owners,
    t.kind? id = some kind → kind.owners? = some owners → ∃ owner ∈ owners, t.kind? p = some owner
  childless : ∀ id, ∀ kind ∈ NodeKind.childless, t.kind? id = some kind → t.children id = []

/-! ## Pushing -/

theorem kind?_push {t : SyntaxTree} (parent : NodeId) (kind : NodeKind) (i : NodeId) :
    (t.push parent kind).kind? i = if i = t.size then some kind else t.kind? i := by
  rw [kind?, kind?, push, size]
  simp only [Array.getElem?_push, Array.size_modify, Array.getElem?_modify]
  by_cases hnew : i = t.nodes.size
  · rw [if_pos hnew, if_pos hnew]
    rfl
  · rw [if_neg hnew, if_neg hnew]
    by_cases hparent : parent = i
    · rw [if_pos hparent, Option.map_map]
      rfl
    · rw [if_neg hparent]

theorem lt_size_of_kind? {t : SyntaxTree} {id : NodeId} {kind : NodeKind}
    (h : t.kind? id = some kind) : id < t.size := by
  rw [kind?, Option.map_eq_some_iff] at h
  obtain ⟨node, hnode, -⟩ := h
  exact (Array.getElem?_eq_some_iff.mp hnode).choose

theorem children_eq_nil {t : SyntaxTree} {id : NodeId} (h : t.size ≤ id) : t.children id = [] := by
  rw [children, Array.getElem?_eq_none h]

/-- `u` has the nodes of `t` with their kinds, and all their children. -/
structure Extends (t u : SyntaxTree) : Prop where
  kind : ∀ {id kind}, t.kind? id = some kind → u.kind? id = some kind
  children : ∀ id, t.children id <+: u.children id

theorem Extends.refl (t : SyntaxTree) : t.Extends t :=
  ⟨fun h => h, fun _ => List.prefix_rfl⟩

theorem Extends.trans {t u v : SyntaxTree} (htu : t.Extends u) (huv : u.Extends v) : t.Extends v :=
  ⟨fun h => huv.kind (htu.kind h), fun id => (htu.children id).trans (huv.children id)⟩

theorem Extends.children_eq_nil {t u : SyntaxTree} (h : t.Extends u) {id : NodeId}
    (hid : u.children id = []) : t.children id = [] := by
  have := h.children id
  rwa [hid, List.prefix_nil] at this

theorem extends_push {t : SyntaxTree} {parent : NodeId} (h : parent < t.size) (kind : NodeKind) :
    t.Extends (t.push parent kind) where
  kind := by
    intro id k hid
    rw [kind?_push, if_neg (Nat.ne_of_lt (lt_size_of_kind? hid)), hid]
  children := by
    intro id
    rw [children_push h]
    split
    · exact List.prefix_append _ _
    · exact List.prefix_rfl

/-- The shape of a tree, but for declarations that wait for their first declarator. -/
structure Regular (t : SyntaxTree) : Prop where
  program : ∀ id, t.kind? id = some .program ↔ id = root
  edge : ∀ p, ∀ id ∈ t.children p, p < id ∧
    ∃ parent child, t.kind? p = some parent ∧ t.kind? id = some child ∧ parent.Admits child
  parent : ∀ id < t.size, id ≠ root → ∃ p, ∀ q, id ∈ t.children q ↔ q = p

namespace Regular

variable {t : SyntaxTree}

theorem new : Regular (.new .program) where
  program := by
    intro id
    cases id with
    | zero => exact iff_of_true rfl rfl
    | succ n => exact iff_of_false (fun h => nomatch h) (Nat.succ_ne_zero n)
  edge := by
    intro p id hid
    cases p with
    | zero => exact nomatch hid
    | succ n => exact nomatch hid
  parent := fun id hid hne => absurd (Nat.lt_one_iff.mp hid) hne

theorem lt_size (h : t.Regular) {p id : NodeId} (hid : id ∈ t.children p) : id < t.size := by
  obtain ⟨-, _, _, -, hkind, -⟩ := h.edge p id hid
  exact lt_size_of_kind? hkind

theorem push (h : t.Regular) {p : NodeId} {parent child : NodeKind} (hp : t.kind? p = some parent)
    (hadmits : parent.Admits child) : (t.push p child).Regular := by
  have hlt := lt_size_of_kind? hp
  have hextends := extends_push hlt child
  have hnew : (t.push p child).kind? t.size = some child := by rw [kind?_push, if_pos rfl]
  -- a child of the new tree is an old one, or the new node below `p`
  have hmem (q id : NodeId) : id ∈ (t.push p child).children q ↔
      id ∈ t.children q ∨ (id = t.size ∧ q = p) := by
    rw [children_push hlt]
    by_cases hq : q = p
    · simp [hq]
    · simp [hq]
  refine ⟨?_, ?_, ?_⟩
  · intro id
    rw [kind?_push]
    by_cases hid : id = t.size
    · -- no node of any kind may have a program for a child
      have hprogram : child ≠ .program := by
        rintro rfl
        exact List.not_mem_nil (hadmits.1 [] rfl)
      have hroot : id ≠ root := by
        rw [hid]
        exact Nat.ne_of_gt (Nat.zero_lt_of_lt hlt)
      rw [if_pos hid]
      exact iff_of_false (fun h => hprogram (Option.some.inj h)) hroot
    · rw [if_neg hid]
      exact h.program id
  · intro q id hid
    obtain hid | ⟨rfl, rfl⟩ := (hmem q id).mp hid
    · obtain ⟨hqid, pk, ck, hpk, hck, hedge⟩ := h.edge q id hid
      exact ⟨hqid, pk, ck, hextends.kind hpk, hextends.kind hck, hedge⟩
    · exact ⟨hlt, parent, child, hextends.kind hp, hnew, hadmits⟩
  · intro id hid hne
    simp only [hmem]
    rw [size_push] at hid
    by_cases hsize : id = t.size
    · refine ⟨p, fun q => ?_⟩
      have hfresh : id ∉ t.children q := fun hq => Nat.ne_of_lt (h.lt_size hq) hsize
      rw [or_iff_right hfresh, and_iff_right hsize]
    · obtain ⟨p', hp'⟩ := h.parent id (by omega) hne
      refine ⟨p', fun q => ?_⟩
      rw [hp' q]
      simp [hsize]

/-- With no declaration left to wait, the shape is that of ESTree. -/
theorem esTree (h : t.Regular)
    (hdeclaration : ∀ id, t.kind? id = some .variableDeclaration → t.children id ≠ []) :
    t.ESTree where
  parent := by
    intro id hid hne
    obtain ⟨p, hp⟩ := h.parent id hid hne
    exact ⟨p, (h.edge p id ((hp p).mpr rfl)).1, hp⟩
  program := h.program
  declarator := by
    intro p id hid
    obtain ⟨-, parent, child, hparent, hchild, howners, -, hdeclarator⟩ := h.edge p id hid
    rw [hparent, hchild, Option.some_inj, Option.some_inj]
    constructor
    · rintro rfl
      exact List.mem_singleton.mp (howners _ rfl)
    · exact hdeclarator
  declaration := hdeclaration
  owned := by
    intro p id hid kind owners hkind howners
    obtain ⟨-, parent, child, hparent, hchild, hall, -⟩ := h.edge p id hid
    cases hkind.symm.trans hchild
    exact ⟨parent, hall owners howners, hparent⟩
  childless := by
    intro id kind hchildless hkind
    refine List.eq_nil_iff_forall_not_mem.mpr fun c hc => ?_
    obtain ⟨-, parent, child, hparent, -, -, hfertile, -⟩ := h.edge id c hc
    cases hkind.symm.trans hparent
    exact hfertile hchildless

end Regular

end SyntaxTree

/-! ## Growths that suit a kind -/

/-- A growth keeps to the law below nodes of a kind: at each node it adds, and with a declarator in
each declaration. -/
inductive Growth.Suits : NodeKind → Growth → Prop
  | leaf {parent kind : NodeKind} (admits : parent.Admits kind)
      (hkind : kind ≠ .variableDeclaration) : Suits parent (.leaf kind)
  | node {parent kind : NodeKind} {children : List Growth} (admits : parent.Admits kind)
      (declares : kind = .variableDeclaration → children ≠ [])
      (below : ∀ g ∈ children, Suits kind g) : Suits parent (.node kind children)
  | loopVariable {parent : NodeKind} {children : List Growth}
      (pair : Suits parent (.node .variableDeclaration [.node .variableDeclarator children])) :
      Suits parent (.loopVariable children)

/-- A planter in the middle of a well-shaped tree: at most the current node, of kind `kind`, is a
declaration that still waits for its first declarator. -/
structure Planter.Tends (p : Planter) (kind : NodeKind) : Prop where
  regular : p.tree.Regular
  current : p.tree.kind? p.current = some kind
  waiting : ∀ id, p.tree.kind? id = some .variableDeclaration → p.tree.children id = [] →
    id = p.current

theorem Planter.current_enter (p : Planter) (kind : NodeKind) :
    (p.enter kind).current = p.tree.size := by
  rw [current, path_enter, Array.back?_push, Option.getD_some]

theorem Planter.current_congr {p q : Planter} (h : p.path = q.path) : p.current = q.current := by
  rw [current, h, current]

namespace Planter.Tends

variable {p : Planter} {parent kind : NodeKind}

theorem new : (Planter.new .program).Tends .program where
  regular := .new
  current := rfl
  waiting := by
    intro id hkind _
    cases id with
    | zero => rfl
    | succ n => exact nomatch hkind

theorem current_lt (h : p.Tends parent) : p.current < p.tree.size :=
  SyntaxTree.lt_size_of_kind? h.current

theorem leaf (h : p.Tends parent) (hadmits : parent.Admits kind)
    (hkind : kind ≠ .variableDeclaration) : (p.leaf kind).Tends parent where
  regular := h.regular.push h.current hadmits
  current := (SyntaxTree.extends_push h.current_lt kind).kind h.current
  waiting := by
    intro id hid hnil
    have hid' : p.tree.kind? id = some .variableDeclaration := by
      rw [Planter.leaf, SyntaxTree.kind?_push] at hid
      by_cases hnew : id = p.tree.size
      · rw [if_pos hnew] at hid
        exact absurd (Option.some.inj hid) hkind
      · rwa [if_neg hnew] at hid
    exact h.waiting id hid' ((SyntaxTree.extends_push h.current_lt kind).children_eq_nil hnil)

theorem children_push_current (h : p.Tends parent) (kind : NodeKind) :
    (p.tree.push p.current kind).children p.current ≠ [] := by
  rw [SyntaxTree.children_push h.current_lt, if_pos rfl]
  exact List.append_ne_nil_of_right_ne_nil _ (List.cons_ne_nil _ _)

/-- The node that is left for a new one has a child from then on. -/
theorem enter (h : p.Tends parent) (hadmits : parent.Admits kind) : (p.enter kind).Tends kind where
  regular := h.regular.push h.current hadmits
  current := by
    rw [current_enter, Planter.enter, SyntaxTree.kind?_push, if_pos rfl]
  waiting := by
    intro id hid hnil
    rw [Planter.enter] at hid hnil
    rw [current_enter]
    by_contra hne
    rw [SyntaxTree.kind?_push, if_neg hne] at hid
    have hold := (SyntaxTree.extends_push h.current_lt kind).children_eq_nil hnil
    rw [h.waiting id hid hold] at hnil
    exact h.children_push_current kind hnil

end Planter.Tends

namespace Growth

open Planter (Tends)

theorem sprout_loopVariable (children : List Growth) (p : Planter) :
    (loopVariable children).sprout p =
      (node .variableDeclaration [.node .variableDeclarator children]).sprout p := by
  rw [sprout, sprout, sproutAll, sproutAll, sprout]

/-- Planting growths one after the other, if each of them tends the tree and adds a child to the
current node. -/
theorem tends_sproutAll {parent : NodeKind} {gs : List Growth}
    (hstep : ∀ g ∈ gs, ∀ p : Planter, p.Tends parent → (g.sprout p).Tends parent ∧
      p.tree.Extends (g.sprout p).tree ∧ (g.sprout p).tree.children p.current ≠ [])
    {p : Planter} (h : p.Tends parent) :
    (sproutAll gs p).Tends parent ∧ p.tree.Extends (sproutAll gs p).tree ∧
      (gs ≠ [] → (sproutAll gs p).tree.children p.current ≠ []) := by
  induction gs generalizing p with
  | nil => exact ⟨h, .refl _, fun hne => absurd rfl hne⟩
  | cons g rest ih =>
    obtain ⟨htends, hfirst, hchild⟩ := hstep g List.mem_cons_self p h
    obtain ⟨htends', hrest, -⟩ := ih (fun g hg => hstep g (List.mem_cons_of_mem _ hg)) htends
    exact ⟨htends', hfirst.trans hrest, fun _ hnil => hchild (hrest.children_eq_nil hnil)⟩

/-- A growth that suits the current node tends the tree and adds a child to that node. -/
theorem Suits.tends_sprout {parent : NodeKind} {g : Growth} (hg : g.Suits parent) :
    ∀ p : Planter, p.Tends parent → (g.sprout p).Tends parent ∧
      p.tree.Extends (g.sprout p).tree ∧ (g.sprout p).tree.children p.current ≠ [] := by
  induction hg with
  | leaf admits hkind =>
    intro p h
    exact ⟨h.leaf admits hkind, SyntaxTree.extends_push h.current_lt _, h.children_push_current _⟩
  | @node parent kind children admits declares _ ih =>
    intro p h
    obtain ⟨htends, hbelow, hchildren⟩ := tends_sproutAll ih (h.enter admits)
    have hextends := (SyntaxTree.extends_push h.current_lt kind).trans hbelow
    have hback := Planter.current_congr (path_sprout (.node kind children) p)
    rw [sprout] at hback ⊢
    refine ⟨⟨htends.regular, ?_, ?_⟩, hextends, ?_⟩
    · rw [hback]
      exact hextends.kind h.current
    · -- the node that is left is no declaration without children
      intro id hid hnil
      have hinside := htends.waiting id hid hnil
      rw [hinside] at hid hnil
      cases htends.current.symm.trans hid
      rw [Planter.current_congr (path_sproutAll children (p.enter .variableDeclaration))] at hnil
      exact absurd hnil (hchildren (declares rfl))
    · exact fun hnil => h.children_push_current kind (hbelow.children_eq_nil hnil)
  | loopVariable _ ih =>
    intro p h
    rw [sprout_loopVariable]
    exact ih p h

end Growth

namespace SyntaxTree

/-- Growths that suit a program make a tree of ESTree shape. -/
theorem esTree_grow {growths : List Growth} (h : ∀ g ∈ growths, g.Suits .program) :
    (grow .program growths).ESTree := by
  obtain ⟨htends, -, -⟩ :=
    Growth.tends_sproutAll (fun g hg => (h g hg).tends_sprout) Planter.Tends.new
  refine htends.regular.esTree fun id hid hnil => ?_
  -- only the root could still wait, and it is no declaration
  have hroot := htends.waiting id hid hnil
  have := htends.current
  rw [← hroot] at this
  exact nomatch hid.symm.trans this

end SyntaxTree

end ScriptFeatures.Tree
