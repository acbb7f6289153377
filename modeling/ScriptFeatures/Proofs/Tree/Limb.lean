import Mathlib.Data.List.Nodup
import ScriptFeatures.Tree.Outline

/-! What a flat tree stands for. A `Limb` is a node with everything below it, as a term; `Limb.Of`
says that the arena holds it, and `SyntaxTree.Grown` that it holds nothing else.

* `Limb.insert` is what a push does to the term, and `Limb.nodes_insert` says which nodes it adds.
* `Grown.push` keeps the relation, so every tree built by pushes under its nodes has a term.
* `Grown.depth_eq` reads the explicit-stack depth as the height of the term. -/

namespace ScriptFeatures.Tree

/-- A node and the limbs of its children in order. -/
inductive Limb
  | node (id : NodeId) (limbs : List Limb)

namespace Limb

/-- The node at which a limb begins. -/
def id : Limb → NodeId
  | .node id _ => id

mutual

/-- The nodes of a limb in pre-order, each with its level, if its first node has level `level`. -/
def nodes (level : Nat) : Limb → List (NodeId × Nat)
  | .node id limbs => (id, level) :: nodesAll (level + 1) limbs

/-- The nodes of several limbs side by side. -/
def nodesAll (level : Nat) : List Limb → List (NodeId × Nat)
  | [] => []
  | l :: rest => l.nodes level ++ nodesAll level rest

end

mutual

/-- One plus the largest height of the limbs of the children. -/
def height : Limb → Nat
  | .node _ limbs => heightAll limbs + 1

/-- The largest height of several limbs. -/
def heightAll : List Limb → Nat
  | [] => 0
  | l :: rest => max l.height (heightAll rest)

end

mutual

/-- A limb with the childless node `new` added as the last child of `parent`. -/
def insert (parent new : NodeId) : Limb → Limb
  | .node id limbs =>
    .node id (insertAll parent new limbs ++ if id = parent then [.node new []] else [])

/-- Several limbs with the node added. -/
def insertAll (parent new : NodeId) : List Limb → List Limb
  | [] => []
  | l :: rest => l.insert parent new :: insertAll parent new rest

end

/-- The arena holds a limb: every node has the children that the limb says. -/
inductive Of (t : SyntaxTree) : Limb → Prop
  | node {id : NodeId} {limbs : List Limb} (children : t.children id = limbs.map Limb.id)
      (below : ∀ l ∈ limbs, Of t l) : Of t (.node id limbs)

/-! ## Lists of limbs -/

theorem nodesAll_eq_flatMap (level : Nat) (limbs : List Limb) :
    nodesAll level limbs = limbs.flatMap (nodes level) := by
  induction limbs with
  | nil => rfl
  | cons l rest ih => rw [nodesAll, ih, List.flatMap_cons]

theorem nodesAll_append (level : Nat) (ls rs : List Limb) :
    nodesAll level (ls ++ rs) = nodesAll level ls ++ nodesAll level rs := by
  simp only [nodesAll_eq_flatMap, List.flatMap_append]

theorem nodesAll_reverse_perm (level : Nat) (limbs : List Limb) :
    (nodesAll level limbs.reverse).Perm (nodesAll level limbs) := by
  simp only [nodesAll_eq_flatMap]
  exact (List.reverse_perm limbs).flatMap_right _

theorem heightAll_append (ls rs : List Limb) :
    heightAll (ls ++ rs) = max (heightAll ls) (heightAll rs) := by
  induction ls with
  | nil => rw [List.nil_append, heightAll, Nat.zero_max]
  | cons l ls ih => rw [List.cons_append, heightAll, ih, heightAll, Nat.max_assoc]

theorem heightAll_reverse (limbs : List Limb) : heightAll limbs.reverse = heightAll limbs := by
  induction limbs with
  | nil => rfl
  | cons l rest ih =>
    rw [List.reverse_cons, heightAll_append, ih, heightAll, heightAll, heightAll, Nat.max_zero,
      Nat.max_comm]

theorem insertAll_eq_map (parent new : NodeId) (limbs : List Limb) :
    insertAll parent new limbs = limbs.map (insert parent new) := by
  induction limbs with
  | nil => rfl
  | cons l rest ih => rw [insertAll, ih, List.map_cons]

@[simp]
theorem id_insert (parent new : NodeId) (l : Limb) : (l.insert parent new).id = l.id := by
  cases l with
  | node _ _ => rfl

/-! ## Levels and height -/

mutual

/-- The height is the least bound on how many levels the nodes take up. -/
theorem height_le_iff (level bound : Nat) : ∀ l : Limb,
    level + l.height ≤ bound ↔ ∀ x ∈ l.nodes (level + 1), x.2 ≤ bound
  | .node id limbs => by
    rw [height, nodes, List.forall_mem_cons]
    constructor
    · intro h
      have hfirst : level + 1 ≤ bound := by omega
      exact ⟨hfirst, (heightAll_le_iff (level + 1) bound hfirst limbs).mp (by omega)⟩
    · rintro ⟨hfirst, hrest⟩
      have := (heightAll_le_iff (level + 1) bound hfirst limbs).mpr hrest
      omega

theorem heightAll_le_iff (level bound : Nat) (h : level ≤ bound) : ∀ limbs : List Limb,
    level + heightAll limbs ≤ bound ↔ ∀ x ∈ nodesAll (level + 1) limbs, x.2 ≤ bound
  | [] => by simpa [heightAll, nodesAll] using h
  | l :: rest => by
    have hl := height_le_iff level bound l
    have hrest := heightAll_le_iff level bound h rest
    rw [heightAll, nodesAll, List.forall_mem_append, ← hl, ← hrest]
    omega

end

/-- The nodes a new one brings: itself, one level below each node it is put under. -/
def offspring (parent new : NodeId) (nodes : List (NodeId × Nat)) : List (NodeId × Nat) :=
  (nodes.filter (·.1 == parent)).map fun x => (new, x.2 + 1)

theorem offspring_append (parent new : NodeId) (xs ys : List (NodeId × Nat)) :
    offspring parent new (xs ++ ys) = offspring parent new xs ++ offspring parent new ys := by
  simp only [offspring, List.filter_append, List.map_append]

mutual

/-- Inserting keeps the nodes with their levels and adds the offspring. -/
theorem nodes_insert (parent new : NodeId) (level : Nat) : ∀ l : Limb,
    ((l.insert parent new).nodes level).Perm
      (l.nodes level ++ offspring parent new (l.nodes level))
  | .node id limbs => by
    have ih := nodesAll_insertAll parent new (level + 1) limbs
    rw [insert, nodes, nodes, nodesAll_append, List.cons_append]
    refine List.Perm.cons _ ?_
    by_cases h : id = parent
    · subst h
      have hfirst : offspring id new ((id, level) :: nodesAll (level + 1) limbs) =
          (new, level + 1) :: offspring id new (nodesAll (level + 1) limbs) := by
        simp [offspring]
      rw [if_pos rfl, hfirst]
      refine (ih.append_right _).trans ?_
      rw [List.append_assoc]
      exact (List.perm_append_singleton _ _).append_left _
    · have hrest : offspring parent new ((id, level) :: nodesAll (level + 1) limbs) =
          offspring parent new (nodesAll (level + 1) limbs) := by
        simp [offspring, h]
      rw [if_neg h, hrest, nodesAll, List.append_nil]
      exact ih

theorem nodesAll_insertAll (parent new : NodeId) (level : Nat) : ∀ limbs : List Limb,
    (nodesAll level (insertAll parent new limbs)).Perm
      (nodesAll level limbs ++ offspring parent new (nodesAll level limbs))
  | [] => List.Perm.refl _
  | l :: rest => by
    have hl := nodes_insert parent new level l
    have hrest := nodesAll_insertAll parent new level rest
    rw [insertAll, nodesAll, nodesAll, offspring_append]
    refine (hl.append hrest).trans ?_
    simp only [List.append_assoc]
    refine List.Perm.append_left _ ?_
    simp only [← List.append_assoc]
    exact List.perm_append_comm.append_right _

end

/-! ## Visiting a limb with a stack -/

/-- Visiting a limb on top of a stack takes as many steps as it has nodes, finds its height and
leaves the rest of the stack. -/
def Visited (t : SyntaxTree) (l : Limb) : Prop :=
  ∀ (fuel level deepest : Nat) (stack : List (NodeId × Nat)),
    t.depthFrom ((l.nodes (level + 1)).length + fuel) ((l.id, level + 1) :: stack) deepest =
      t.depthFrom fuel stack (max deepest (level + l.height))

theorem depthFrom_limbs {t : SyntaxTree} {limbs : List Limb} (h : ∀ l ∈ limbs, l.Visited t)
    (fuel : Nat) {level deepest : Nat} (hdeepest : level ≤ deepest)
    (stack : List (NodeId × Nat)) :
    t.depthFrom ((nodesAll (level + 1) limbs).length + fuel)
        (limbs.map (fun l => (l.id, level + 1)) ++ stack) deepest =
      t.depthFrom fuel stack (max deepest (level + heightAll limbs)) := by
  induction limbs generalizing deepest with
  | nil =>
    have hlevel : max deepest (level + 0) = deepest := Nat.max_eq_left hdeepest
    rw [nodesAll, heightAll, List.length_nil, Nat.zero_add, hlevel]
    rfl
  | cons l rest ih =>
    have hl := h l List.mem_cons_self
    have hdeeper : level ≤ max deepest (level + l.height) := by omega
    rw [nodesAll, List.length_append, Nat.add_assoc, List.map_cons, List.cons_append, hl,
      ih (fun l hl => h l (List.mem_cons_of_mem _ hl)) hdeeper, heightAll, Nat.max_assoc,
      ← Nat.add_max_add_left]

theorem Of.visited {t : SyntaxTree} {l : Limb} (h : l.Of t) : l.Visited t := by
  induction h with
  | node hchildren _ ih =>
    rename_i i limbs _
    intro fuel level deepest stack
    -- the children go on the stack last first, which changes neither their number nor the height
    have hlength := (nodesAll_reverse_perm (level + 2) limbs).length_eq
    have hfuel : (nodes (level + 1) (.node i limbs)).length + fuel =
        (nodesAll (level + 2) limbs.reverse).length + fuel + 1 := by
      rw [nodes, List.length_cons, hlength, Nat.add_right_comm]
    have hlimbs := depthFrom_limbs (fun l hl => ih l (List.mem_reverse.mp hl)) fuel
      (Nat.le_max_right deepest (level + 1)) stack
    rw [heightAll_reverse] at hlimbs
    rw [hfuel, id, SyntaxTree.depthFrom, hchildren, ← List.map_reverse, List.map_map]
    refine hlimbs.trans ?_
    rw [height]
    congr 1
    omega

end Limb

/-! ## Trees that hold one limb -/

namespace SyntaxTree

theorem children_push {t : SyntaxTree} {parent : NodeId} (h : parent < t.size) (kind : NodeKind)
    (i : NodeId) :
    (t.push parent kind).children i =
      if i = parent then t.children i ++ [t.size] else t.children i := by
  rw [size] at h
  rw [children, children, push, size]
  simp only [Array.getElem?_push, Array.size_modify, Array.getElem?_modify]
  by_cases hi : i = t.nodes.size
  · subst hi
    rw [if_pos rfl, if_neg (Nat.ne_of_gt h), Array.getElem?_eq_none (Nat.le_refl _)]
  · rw [if_neg hi]
    by_cases hp : i = parent
    · subst hp
      rw [if_pos rfl, if_pos rfl, Array.getElem?_eq_getElem h]
      simp
    · rw [if_neg hp, if_neg (Ne.symm hp)]

@[simp]
theorem size_push (t : SyntaxTree) (parent : NodeId) (kind : NodeKind) :
    (t.push parent kind).size = t.size + 1 := by
  simp [size, push]

end SyntaxTree

theorem Limb.Of.push {t : SyntaxTree} {parent : NodeId} (h : parent < t.size) (kind : NodeKind)
    {l : Limb} (hl : l.Of t) : (l.insert parent t.size).Of (t.push parent kind) := by
  induction hl with
  | node hchildren _ ih =>
    rename_i i limbs _
    rw [Limb.insert, Limb.insertAll_eq_map]
    refine .node ?_ ?_
    · rw [SyntaxTree.children_push h, hchildren, List.map_append, List.map_map]
      have : Limb.id ∘ Limb.insert parent t.size = Limb.id :=
        funext fun l => Limb.id_insert parent t.size l
      rw [this]
      split
      · rfl
      · rw [List.map_nil, List.append_nil]
    · intro l hl
      rw [List.mem_append] at hl
      obtain hl | hl := hl
      · obtain ⟨m, hm, rfl⟩ := List.mem_map.mp hl
        exact ih m hm
      · split at hl
        · rw [List.mem_singleton.mp hl]
          refine .node ?_ (by simp)
          have hnone : t.children t.size = [] := by
            rw [SyntaxTree.children, SyntaxTree.size, Array.getElem?_eq_none (Nat.le_refl _)]
          rw [SyntaxTree.children_push h, if_neg (Nat.ne_of_gt h), hnone, List.map_nil]
        · exact absurd hl (List.not_mem_nil)

namespace SyntaxTree

/-- The arena is the limb `l`: it begins at the root and has every node once. -/
structure Grown (t : SyntaxTree) (l : Limb) : Prop where
  of : l.Of t
  root : l.id = root
  once : ((l.nodes 1).map Prod.fst).Perm (List.range t.size)

namespace Grown

variable {t : SyntaxTree} {l : Limb}

theorem new (kind : NodeKind) : Grown (.new kind) (.node SyntaxTree.root []) where
  of := .node rfl (by simp)
  root := rfl
  once := List.Perm.refl _

/-- A node has one level. -/
theorem level_unique (h : t.Grown l) {i d e : Nat} (hd : (i, d) ∈ l.nodes 1)
    (he : (i, e) ∈ l.nodes 1) : d = e := by
  have hnodup : ((l.nodes 1).map Prod.fst).Nodup := h.once.nodup_iff.mpr List.nodup_range
  exact congrArg Prod.snd (List.inj_on_of_nodup_map hnodup hd he rfl)

theorem lt_size (h : t.Grown l) {i d : Nat} (hd : (i, d) ∈ l.nodes 1) : i < t.size :=
  List.mem_range.mp (h.once.mem_iff.mp (List.mem_map_of_mem hd))

theorem mem_nodes_insert (h : t.Grown l) {parent d : Nat} (hp : (parent, d) ∈ l.nodes 1)
    (x : NodeId × Nat) :
    x ∈ (l.insert parent t.size).nodes 1 ↔ x ∈ l.nodes 1 ∨ x = (t.size, d + 1) := by
  rw [(Limb.nodes_insert parent t.size 1 l).mem_iff, List.mem_append]
  refine or_congr_right ?_
  rw [Limb.offspring, List.mem_map]
  constructor
  · rintro ⟨⟨i, e⟩, hy, rfl⟩
    obtain ⟨hmem, hi⟩ := List.mem_filter.mp hy
    have hi : i = parent := by simpa using hi
    subst hi
    rw [h.level_unique hmem hp]
  · rintro rfl
    exact ⟨(parent, d), List.mem_filter.mpr ⟨hp, by simp⟩, rfl⟩

/-- A push under a node keeps the relation. -/
theorem push (h : t.Grown l) {parent d : Nat} (hp : (parent, d) ∈ l.nodes 1) (kind : NodeKind) :
    (t.push parent kind).Grown (l.insert parent t.size) where
  of := h.of.push (h.lt_size hp) kind
  root := by rw [Limb.id_insert, h.root]
  once := by
    have hnodup : ((l.nodes 1).map Prod.fst).Nodup := h.once.nodup_iff.mpr List.nodup_range
    have hcount : ((l.nodes 1).filter (·.1 == parent)).length = 1 := by
      have := List.count_eq_one_of_mem hnodup (List.mem_map_of_mem hp)
      rw [List.count, List.countP_map, List.countP_eq_length_filter] at this
      exact this
    have hnew : (Limb.offspring parent t.size (l.nodes 1)).map Prod.fst = [t.size] := by
      rw [Limb.offspring, List.map_map]
      obtain ⟨x, hx⟩ := List.length_eq_one_iff.mp hcount
      rw [hx]
      rfl
    have := (Limb.nodes_insert parent t.size 1 l).map Prod.fst
    rw [List.map_append, hnew] at this
    rw [size_push, List.range_succ]
    exact this.trans (h.once.append_right _)

/-- A push makes the tree one level deeper than the parent, unless it was that deep before. -/
theorem height_insert (h : t.Grown l) {parent d : Nat} (hp : (parent, d) ∈ l.nodes 1) :
    (l.insert parent t.size).height = max l.height (d + 1) := by
  have key (bound : Nat) :
      (l.insert parent t.size).height ≤ bound ↔ l.height ≤ bound ∧ d + 1 ≤ bound := by
    have hold := Limb.height_le_iff 0 bound l
    have hnew := Limb.height_le_iff 0 bound (l.insert parent t.size)
    rw [Nat.zero_add] at hold hnew
    rw [hnew, hold]
    constructor
    · intro hall
      exact ⟨fun x hx => hall x ((h.mem_nodes_insert hp x).mpr (.inl hx)),
        hall _ ((h.mem_nodes_insert hp _).mpr (.inr rfl))⟩
    · rintro ⟨hall, hd⟩ x hx
      obtain hx | rfl := (h.mem_nodes_insert hp x).mp hx
      · exact hall x hx
      · exact hd
  have hle := (key (max l.height (d + 1))).mpr (by omega)
  have hge := (key _).mp (Nat.le_refl _)
  omega

/-- The explicit stack finds the height of the term. -/
theorem depth_eq (h : t.Grown l) : t.depth = l.height := by
  have hsize : t.size = (l.nodes 1).length + 0 := by
    have := h.once.length_eq
    rw [List.length_map, List.length_range] at this
    omega
  have := h.of.visited 0 0 0 []
  rw [depth, hsize, ← h.root]
  refine this.trans ?_
  rw [depthFrom, Nat.zero_add, Nat.zero_max]

end Grown

end SyntaxTree

end ScriptFeatures.Tree
