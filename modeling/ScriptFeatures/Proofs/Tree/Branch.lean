import ScriptFeatures.Proofs.Tree.Shape
import ScriptFeatures.Proofs.Tree.Walk

/-! Reading a planted tree back. A `Branch` is a node with everything below it, as a term of kinds,
and `SyntaxTree.branches` reads the branches of the root off the arena.

* `Planter.Adds` is what planting does, seen from outside: some branches become the last ones of the
  current node, every other node stays as it is, and so does the path.
* A growth adds its branch (`Growth.adds_sprout`), so a tree has the branches of its growths
  (`branches_grow`) and the kinds in them (`kinds_grow`). -/

namespace ScriptFeatures.Tree

/-- A node and the branches below it, by their kinds. -/
inductive Branch
  | node (kind : NodeKind) (branches : List Branch)
  deriving Repr, Inhabited

namespace Branch

mutual

/-- The number of levels of a branch. -/
def height : Branch → Nat
  | .node _ branches => heightAll branches + 1

/-- The largest number of levels of several branches. -/
def heightAll : List Branch → Nat
  | [] => 0
  | b :: rest => max b.height (heightAll rest)

end

mutual

/-- The kinds in a branch, a node before what is below it. -/
def kinds : Branch → List NodeKind
  | .node kind branches => kind :: kindsAll branches

/-- The kinds in several branches. -/
def kindsAll : List Branch → List NodeKind
  | [] => []
  | b :: rest => b.kinds ++ kindsAll rest

end

theorem kindsAll_append (bs cs : List Branch) :
    kindsAll (bs ++ cs) = kindsAll bs ++ kindsAll cs := by
  induction bs with
  | nil => rfl
  | cons b bs ih => rw [List.cons_append, kindsAll, ih, kindsAll, List.append_assoc]

theorem heightAll_append (bs cs : List Branch) :
    heightAll (bs ++ cs) = max (heightAll bs) (heightAll cs) := by
  induction bs with
  | nil => rw [List.nil_append, heightAll, Nat.zero_max]
  | cons b bs ih => rw [List.cons_append, heightAll, ih, heightAll, Nat.max_assoc]

end Branch

namespace SyntaxTree

/-- The branch that begins at a node, down to a number of levels below it. -/
def branchAt (t : SyntaxTree) : Nat → NodeId → Branch
  | 0, id => .node ((t.kind? id).getD .program) []
  | levels + 1, id =>
    .node ((t.kind? id).getD .program) ((t.children id).map (t.branchAt levels))

/-- The branches below the root, down to the depth of the tree. -/
def branches (t : SyntaxTree) : List Branch :=
  (t.children root).map (t.branchAt t.depth)

/-- The kinds of the nodes in the order of their creation. -/
def created (t : SyntaxTree) : List NodeKind :=
  t.nodes.toList.map Node.kind

theorem created_push (t : SyntaxTree) (parent : NodeId) (kind : NodeKind) :
    (t.push parent kind).created = t.created ++ [kind] := by
  rw [created, push, Array.toList_push, List.map_append, created]
  congr 1
  refine List.ext_getElem? fun i => ?_
  simp only [List.getElem?_map, Array.getElem?_toList, Array.getElem?_modify]
  split
  · rw [Option.map_map]
    rfl
  · rfl

/-! ## Branches that stay as they are -/

theorem Built.lt_of_mem_children {t : SyntaxTree} (h : t.Built) {id c : NodeId}
    (hc : c ∈ t.children id) : id < c := by
  induction h generalizing id c with
  | new root => cases id <;> exact nomatch hc
  | @push t before parent hparent kind ih =>
    rw [children_push hparent] at hc
    split at hc
    · rename_i hid
      obtain hc | hc := List.mem_append.mp hc
      · exact ih hc
      · rw [List.mem_singleton.mp hc, hid]
        exact hparent
    · exact ih hc

/-- A branch is not changed by what happens outside of it: the nodes from `first` on are the same in
two trees, and all that is below them is. -/
theorem branchAt_congr {t u : SyntaxTree} (ht : t.Built) {first : NodeId}
    (hsame : ∀ id, first ≤ id → id < t.size →
      u.kind? id = t.kind? id ∧ u.children id = t.children id)
    (levels : Nat) {id : NodeId} (hfirst : first ≤ id) (hlt : id < t.size) :
    u.branchAt levels id = t.branchAt levels id := by
  induction levels generalizing id with
  | zero => rw [branchAt, branchAt, (hsame id hfirst hlt).1]
  | succ levels ih =>
    obtain ⟨hkind, hchildren⟩ := hsame id hfirst hlt
    rw [branchAt, branchAt, hkind, hchildren]
    congr 1
    refine List.map_congr_left fun c hc => ih ?_ ((ht.children_increasing id).2 c hc)
    exact Nat.le_of_lt (Nat.lt_of_le_of_lt hfirst (ht.lt_of_mem_children hc))

end SyntaxTree

/-! ## Planting -/

namespace Planter

/-- A planter that can go on: the current node is one of a tree made by pushes. -/
structure Ready (p : Planter) : Prop where
  built : p.tree.Built
  current_lt : p.current < p.tree.size

/-- From `p` to `q`, the branches `added` become the last ones of the current node, and nothing else
changes. -/
structure Adds (p : Planter) (added : List Branch) (q : Planter) : Prop where
  path : q.path = p.path
  built : q.tree.Built
  size_le : p.tree.size ≤ q.tree.size
  created : q.tree.created = p.tree.created ++ Branch.kindsAll added
  kind : ∀ id < p.tree.size, q.tree.kind? id = p.tree.kind? id
  children : ∀ id < p.tree.size, id ≠ p.current → q.tree.children id = p.tree.children id
  below : ∃ ids, q.tree.children p.current = p.tree.children p.current ++ ids ∧
    (∀ id ∈ ids, p.tree.size ≤ id) ∧
    ∀ levels, Branch.heightAll added ≤ levels → ids.map (q.tree.branchAt levels) = added

variable {p q r : Planter} {added more : List Branch}

theorem tree_enter (p : Planter) (kind : NodeKind) :
    (p.enter kind).tree = p.tree.push p.current kind := rfl

theorem tree_leave (p : Planter) : p.leave.tree = p.tree := rfl

theorem size_enter (p : Planter) (kind : NodeKind) :
    (p.enter kind).tree.size = p.tree.size + 1 :=
  SyntaxTree.size_push _ _ _

theorem Ready.new (root : NodeKind) : (Planter.new root).Ready :=
  ⟨.new root, Nat.one_pos⟩

theorem Ready.enter (h : p.Ready) (kind : NodeKind) : (p.enter kind).Ready where
  built := .push h.built h.current_lt kind
  current_lt := by
    rw [current_enter, size_enter]
    exact Nat.lt_succ_self _

namespace Adds

theorem ready (h : p.Adds added q) (hp : p.Ready) : q.Ready where
  built := h.built
  current_lt := by
    rw [current_congr h.path]
    exact Nat.lt_of_lt_of_le hp.current_lt h.size_le

theorem refl (hp : p.Ready) : p.Adds [] p where
  path := rfl
  built := hp.built
  size_le := Nat.le_refl _
  created := (List.append_nil _).symm
  kind := fun _ _ => rfl
  children := fun _ _ _ => rfl
  below := ⟨[], (List.append_nil _).symm, (fun _ h => nomatch h), fun _ _ => rfl⟩

/-- The branches that were added first stay as they are, for they are not below the current node of
any later planting but its root. -/
theorem trans (hp : p.Ready) (h : p.Adds added q) (h' : q.Adds more r) :
    p.Adds (added ++ more) r where
  path := h'.path.trans h.path
  built := h'.built
  size_le := Nat.le_trans h.size_le h'.size_le
  created := by rw [h'.created, h.created, Branch.kindsAll_append, List.append_assoc]
  kind := by
    intro id hid
    rw [h'.kind id (Nat.lt_of_lt_of_le hid h.size_le), h.kind id hid]
  children := by
    intro id hid hne
    rw [← current_congr h.path] at hne
    rw [h'.children id (Nat.lt_of_lt_of_le hid h.size_le) hne]
    rw [current_congr h.path] at hne
    exact h.children id hid hne
  below := by
    obtain ⟨ids, hids, hnew, hadded⟩ := h.below
    obtain ⟨ids', hids', hnew', hmore⟩ := h'.below
    have hcurrent := current_congr h.path
    rw [hcurrent] at hids'
    refine ⟨ids ++ ids', by rw [hids', hids, List.append_assoc], ?_, ?_⟩
    · exact List.forall_mem_append.mpr
        ⟨hnew, fun id hid => Nat.le_trans h.size_le (hnew' id hid)⟩
    · intro levels hlevels
      rw [Branch.heightAll_append] at hlevels
      rw [List.map_append, hmore levels (by omega), ← hadded levels (by omega)]
      congr 1
      refine List.map_congr_left fun id hid => ?_
      have hkept : ∀ i, p.tree.size ≤ i → i < q.tree.size →
          r.tree.kind? i = q.tree.kind? i ∧ r.tree.children i = q.tree.children i := by
        intro i hi hlt
        refine ⟨h'.kind i hlt, h'.children i hlt ?_⟩
        rw [hcurrent]
        exact Nat.ne_of_gt (Nat.lt_of_lt_of_le hp.current_lt hi)
      refine SyntaxTree.branchAt_congr h.built hkept levels (hnew id hid) ?_
      refine (h.built.children_increasing p.current).2 id ?_
      rw [hids]
      exact List.mem_append_right _ hid

/-- What is added inside a new node becomes the branch of that node. -/
theorem within (hp : p.Ready) {kind : NodeKind} (h : (p.enter kind).Adds added q) :
    p.Adds [.node kind added] q.leave := by
  have hsize := size_enter p kind
  have hsize_le := h.size_le
  have hchildren := SyntaxTree.children_push hp.current_lt kind
  have hother : ∀ id < p.tree.size, q.tree.children id = (p.enter kind).tree.children id := by
    intro id hid
    refine h.children id (by omega) ?_
    rw [current_enter]
    exact Nat.ne_of_lt hid
  -- the new node is of the given kind and has what is added for children
  have hkind := h.kind p.tree.size (by omega)
  obtain ⟨ids, hids, -, hadded⟩ := h.below
  rw [tree_enter, SyntaxTree.kind?_push, if_pos rfl] at hkind
  rw [current_enter, tree_enter, hchildren, if_neg (Nat.ne_of_gt hp.current_lt),
    SyntaxTree.children_eq_nil (Nat.le_refl _), List.nil_append] at hids
  refine ⟨?_, h.built, ?_, ?_, ?_, ?_, [p.tree.size], ?_, ?_, ?_⟩
  · rw [path_leave, h.path, path_enter, Array.pop_push]
  · rw [tree_leave]
    omega
  · rw [tree_leave, h.created, tree_enter, SyntaxTree.created_push, List.append_assoc,
      Branch.kindsAll, Branch.kindsAll, Branch.kinds, List.append_nil, List.singleton_append]
  · intro id hid
    rw [tree_leave, h.kind id (by omega), tree_enter, SyntaxTree.kind?_push,
      if_neg (Nat.ne_of_lt hid)]
  · intro id hid hne
    rw [tree_leave, hother id hid, tree_enter, hchildren, if_neg hne]
  · rw [tree_leave, hother _ hp.current_lt, tree_enter, hchildren, if_pos rfl]
  · exact List.forall_mem_singleton.mpr (Nat.le_refl _)
  · intro levels hlevels
    rw [Branch.heightAll, Branch.height, Branch.heightAll, Nat.max_zero] at hlevels
    obtain ⟨more, rfl⟩ := Nat.exists_eq_add_of_le' hlevels
    have hinside := hadded (more + Branch.heightAll added) (Nat.le_add_left _ _)
    rw [List.map_singleton, ← Nat.add_assoc, SyntaxTree.branchAt, tree_leave, hkind, hids,
      hinside]
    rfl

end Adds

theorem leaf_eq (p : Planter) (kind : NodeKind) : p.leaf kind = (p.enter kind).leave := by
  rw [leave, path_enter, Array.pop_push]
  rfl

end Planter

namespace Growth

mutual

/-- The branch that a growth becomes. -/
def toBranch : Growth → Branch
  | .leaf kind => .node kind []
  | .node kind children => .node kind (toBranches children)
  | .loopVariable children =>
    .node .variableDeclaration [.node .variableDeclarator (toBranches children)]

/-- The branches that several growths become. -/
def toBranches : List Growth → List Branch
  | [] => []
  | g :: rest => g.toBranch :: toBranches rest

end

theorem toBranches_eq_map (gs : List Growth) : toBranches gs = gs.map toBranch := by
  induction gs with
  | nil => rfl
  | cons g rest ih => rw [toBranches, ih, List.map_cons]

mutual

/-- A branch has as many levels as its growth. -/
theorem height_toBranch : ∀ g : Growth, g.toBranch.height = g.height
  | .leaf _ => rfl
  | .node _ children => by
    rw [toBranch, Branch.height, heightAll_toBranches children, height]
  | .loopVariable children => by
    rw [toBranch, Branch.height, Branch.heightAll, Branch.height, heightAll_toBranches children,
      Branch.heightAll, Nat.max_zero, height]

theorem heightAll_toBranches : ∀ gs : List Growth,
    Branch.heightAll (toBranches gs) = heightAll gs
  | [] => rfl
  | g :: rest => by
    rw [toBranches, Branch.heightAll, height_toBranch g, heightAll_toBranches rest, heightAll]

end

open Planter (Ready Adds)

mutual

/-- A growth adds its branch. -/
theorem adds_sprout : ∀ (g : Growth) {p : Planter}, p.Ready → p.Adds [g.toBranch] (g.sprout p)
  | .leaf kind, p, hp => by
    rw [sprout, Planter.leaf_eq, toBranch]
    exact .within hp (.refl (hp.enter kind))
  | .node kind children, p, hp => by
    rw [sprout, toBranch]
    exact .within hp (adds_sproutAll children (hp.enter kind))
  | .loopVariable children, p, hp => by
    have hdeclaration := hp.enter .variableDeclaration
    rw [sprout, toBranch]
    exact .within hp (.within hdeclaration
      (adds_sproutAll children (hdeclaration.enter .variableDeclarator)))

theorem adds_sproutAll : ∀ (gs : List Growth) {p : Planter}, p.Ready →
    p.Adds (toBranches gs) (sproutAll gs p)
  | [], p, hp => .refl hp
  | g :: rest, p, hp => by
    have hfirst := adds_sprout g hp
    exact hfirst.trans hp (adds_sproutAll rest (hfirst.ready hp))

end

/-! ## Planting within a limit -/

theorem plantAll_singleton (limit : Nat) (g : Growth) (p : Planter) :
    plantAll limit [g] p = g.plant limit p := by
  rw [plantAll]
  cases g.plant limit p with
  | none => rfl
  | some q => rfl

theorem plantAll_append (limit : Nat) (gs hs : List Growth) (p : Planter) :
    plantAll limit (gs ++ hs) p = (plantAll limit gs p).bind (plantAll limit hs) := by
  induction gs generalizing p with
  | nil => rfl
  | cons g rest ih =>
    rw [List.cons_append, plantAll, plantAll]
    cases g.plant limit p with
    | none => rfl
    | some q => exact ih q

theorem adds_plantAll {limit : Nat} {gs : List Growth} {p q : Planter} (hp : p.Ready)
    (h : plantAll limit gs p = some q) : p.Adds (toBranches gs) q := by
  rw [plantAll_eq] at h
  split at h
  · cases h
    exact adds_sproutAll gs hp
  · exact nomatch h

end Growth

namespace SyntaxTree

theorem built_grow (root : NodeKind) (growths : List Growth) : (grow root growths).Built :=
  (Growth.adds_sproutAll growths (.new root)).built

/-- A tree has the branches of the growths that were planted below its root, in order. -/
theorem branches_grow (root : NodeKind) (growths : List Growth) :
    (grow root growths).branches = growths.map Growth.toBranch := by
  obtain ⟨ids, hids, -, hadded⟩ := (Growth.adds_sproutAll growths (.new root)).below
  have hheight := Growth.heightAll_toBranches growths
  have hdepth := depth_grow root growths
  have hnil : (Planter.new root).tree.children (Planter.new root).current = [] := rfl
  rw [hnil, List.nil_append] at hids
  rw [← Growth.toBranches_eq_map, ← hadded (grow root growths).depth (by omega), ← hids]
  rfl

/-- A walk of a tree meets the kinds of its root and of its branches. -/
theorem kinds_grow (root : NodeKind) (growths : List Growth) :
    (grow root growths).kinds.Perm
      (root :: Branch.kindsAll (grow root growths).branches) := by
  have hadds := Growth.adds_sproutAll growths (.new root)
  rw [branches_grow, ← Growth.toBranches_eq_map]
  refine hadds.built.kinds_perm.trans ?_
  exact .of_eq hadds.created

end SyntaxTree

end ScriptFeatures.Tree
