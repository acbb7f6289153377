import Mathlib.Order.Bounds.Defs
import ScriptFeatures.Proofs.Tree.Walk

/-! The depth of a tree is its height. The depth is found with a stack of nodes and their levels;
the height is a recursion over the children, and nothing in either says that it ends.

* `Measures` unrolls the loop over the stack, one node a step.
* `Tallest` is the recursion, over a row of siblings.
* `Climbs` counts the steps from a node up to the root.

On a tree built by pushes all three can be read off its limb, so they agree, and a push changes the
depth only if it goes below a deepest node. -/

namespace ScriptFeatures.Tree

namespace SyntaxTree

/-- A loop over a stack of nodes with their levels, which has met `deepest` so far, ends with the
deepest level it meets. -/
inductive Measures (t : SyntaxTree) : List (NodeId × Nat) → Nat → Nat → Prop
  | done (deepest : Nat) : Measures t [] deepest deepest
  | next {id : NodeId} {level deepest result : Nat} {stack : List (NodeId × Nat)}
      (hrest : Measures t ((t.children id).reverse.map (·, level + 1) ++ stack)
        (max deepest level) result) : Measures t ((id, level) :: stack) deepest result

/-- The largest height in a row of siblings, where the height of a node is one plus the largest
height of its children. -/
inductive Tallest (t : SyntaxTree) : List NodeId → Nat → Prop
  | nil : Tallest t [] 0
  | cons {id : NodeId} {siblings : List NodeId} {below beside : Nat}
      (hbelow : Tallest t (t.children id) below) (hbeside : Tallest t siblings beside) :
      Tallest t (id :: siblings) (max (below + 1) beside)

/-- A node reaches the root by so many steps, each from a child to its parent. -/
inductive Climbs (t : SyntaxTree) : NodeId → Nat → Prop
  | root : Climbs t root 0
  | child {parent id : NodeId} {steps : Nat} (hparent : Climbs t parent steps)
      (hchild : id ∈ t.children parent) : Climbs t id (steps + 1)

variable {t : SyntaxTree}

theorem Measures.unique {stack : List (NodeId × Nat)} {deepest result result' : Nat}
    (h : t.Measures stack deepest result) (h' : t.Measures stack deepest result') :
    result = result' := by
  induction h with
  | done => cases h'; rfl
  | next _ ih =>
    cases h' with
    | next hrest' => exact ih hrest'

theorem Tallest.unique {row : List NodeId} {height height' : Nat} (h : t.Tallest row height)
    (h' : t.Tallest row height') : height = height' := by
  induction h generalizing height' with
  | nil => cases h'; rfl
  | cons _ _ ihbelow ihbeside =>
    cases h' with
    | cons hbelow' hbeside' => rw [ihbelow hbelow', ihbeside hbeside']

end SyntaxTree

/-! ## Reading a limb -/

namespace Limb

variable {t : SyntaxTree}

theorem mem_nodesAll {level : Nat} {limbs : List Limb} {x : NodeId × Nat} :
    x ∈ nodesAll level limbs ↔ ∃ l ∈ limbs, x ∈ l.nodes level := by
  rw [nodesAll_eq_flatMap, List.mem_flatMap]

theorem first_mem_nodes (l : Limb) (level : Nat) : (l.id, level) ∈ l.nodes level := by
  cases l with
  | node id limbs => exact List.mem_cons_self

theorem measures_limbs {limbs : List Limb}
    (h : ∀ l ∈ limbs, ∀ (level deepest result : Nat) (stack : List (NodeId × Nat)),
      t.Measures stack (max deepest (level + l.height)) result →
        t.Measures ((l.id, level + 1) :: stack) deepest result)
    {level deepest result : Nat} (hdeepest : level ≤ deepest) {stack : List (NodeId × Nat)}
    (hstack : t.Measures stack (max deepest (level + heightAll limbs)) result) :
    t.Measures (limbs.map (fun l => (l.id, level + 1)) ++ stack) deepest result := by
  induction limbs generalizing deepest with
  | nil =>
    have hlevel : max deepest (level + heightAll []) = deepest := Nat.max_eq_left hdeepest
    rwa [hlevel] at hstack
  | cons l rest ih =>
    rw [List.forall_mem_cons] at h
    refine h.1 level deepest result _ (ih h.2 (by omega) ?_)
    rwa [Nat.max_assoc, Nat.add_max_add_left]

/-- The loop finds the height of a limb on top of its stack and goes on with the rest. -/
theorem Of.measures {l : Limb} (h : l.Of t) (level deepest result : Nat)
    (stack : List (NodeId × Nat))
    (hstack : t.Measures stack (max deepest (level + l.height)) result) :
    t.Measures ((l.id, level + 1) :: stack) deepest result := by
  induction h generalizing level deepest result stack with
  | @node id limbs hchildren _ ih =>
    -- the children stand on the stack the last one first, which does not change their height
    have hlimbs := @measures_limbs t limbs.reverse (fun l hl => ih l (List.mem_reverse.mp hl))
      _ _ result (Nat.le_max_right deepest (level + 1)) stack
    have hheight : max (max deepest (level + 1)) (level + 1 + heightAll limbs) =
        max deepest (level + height (.node id limbs)) := by
      rw [height]
      omega
    rw [heightAll_reverse, hheight] at hlimbs
    refine .next ?_
    rw [Limb.id, hchildren, ← List.map_reverse, List.map_map]
    exact hlimbs hstack

theorem tallest_limbs {limbs : List Limb} (h : ∀ l ∈ limbs, t.Tallest [l.id] l.height) :
    t.Tallest (limbs.map id) (heightAll limbs) := by
  induction limbs with
  | nil => exact .nil
  | cons l rest ih =>
    rw [List.forall_mem_cons] at h
    obtain ⟨hl, hrest⟩ := h
    rw [heightAll]
    generalize l.height = height at hl
    cases hl with
    | @cons _ _ below _ hbelow hnone =>
      cases hnone
      rw [Nat.max_zero]
      exact .cons hbelow (ih hrest)

/-- The recursion over an arena that holds a limb finds its height. -/
theorem Of.tallest {l : Limb} (h : l.Of t) : t.Tallest [l.id] l.height := by
  induction h with
  | @node id limbs hchildren _ ih =>
    have hbelow := tallest_limbs ih
    rw [← hchildren] at hbelow
    rw [height, ← Nat.max_zero (heightAll limbs + 1)]
    exact .cons hbelow .nil

/-- The children of a node in a limb are in it as well, one level deeper. -/
theorem Of.child_mem_nodes {l : Limb} (h : l.Of t) {level d : Nat} {parent child : NodeId}
    (hparent : (parent, d) ∈ l.nodes level) (hchild : child ∈ t.children parent) :
    (child, d + 1) ∈ l.nodes level := by
  induction h generalizing level with
  | @node id limbs hchildren _ ih =>
    rw [nodes] at hparent ⊢
    refine List.mem_cons_of_mem _ (mem_nodesAll.mpr ?_)
    obtain heq | hbelow := List.mem_cons.mp hparent
    · cases heq
      rw [hchildren] at hchild
      obtain ⟨l, hl, rfl⟩ := List.mem_map.mp hchild
      exact ⟨l, hl, l.first_mem_nodes _⟩
    · obtain ⟨l, hl, hmem⟩ := mem_nodesAll.mp hbelow
      exact ⟨l, hl, ih l hl hmem⟩

/-- From every node of a limb as many steps lead to the root as its level says. -/
theorem Of.climbs {l : Limb} (h : l.Of t) {steps : Nat} (hfirst : t.Climbs l.id steps) :
    ∀ x ∈ l.nodes (steps + 1), ∃ n, x.2 = n + 1 ∧ t.Climbs x.1 n := by
  induction h generalizing steps with
  | @node id limbs hchildren _ ih =>
    intro x hx
    obtain rfl | hbelow := List.mem_cons.mp hx
    · exact ⟨steps, rfl, hfirst⟩
    · obtain ⟨l, hl, hmem⟩ := mem_nodesAll.mp hbelow
      refine ih l hl (hfirst.child ?_) x hmem
      rw [Limb.id, hchildren]
      exact List.mem_map_of_mem hl

theorem height_pos (l : Limb) : 0 < l.height := by
  cases l with
  | node _ limbs => exact Nat.succ_pos _

/-- A limb has a node on its deepest level. -/
theorem exists_level_eq_height (l : Limb) : ∃ x ∈ l.nodes 1, x.2 = l.height := by
  -- otherwise all levels are below the height, which would bound the height by one less
  refine Classical.byContradiction fun hnone => ?_
  have hpos := l.height_pos
  have hbound := (Limb.height_le_iff 0 l.height l).mp (by omega)
  have hlower : ∀ x ∈ l.nodes 1, x.2 ≤ l.height - 1 := fun x hx => by
    have hle := hbound x hx
    have hne : x.2 ≠ l.height := fun heq => hnone ⟨x, hx, heq⟩
    omega
  have := (Limb.height_le_iff 0 (l.height - 1) l).mpr hlower
  omega

mutual

/-- Every level of a limb has a node. -/
theorem height_le_length (level : Nat) : ∀ l : Limb, l.height ≤ (l.nodes level).length
  | .node _ limbs => by
    have := heightAll_le_length (level + 1) limbs
    rw [height, nodes, List.length_cons]
    omega

theorem heightAll_le_length (level : Nat) :
    ∀ limbs : List Limb, heightAll limbs ≤ (nodesAll level limbs).length
  | [] => Nat.le_refl _
  | l :: rest => by
    have hl := height_le_length level l
    have hrest := heightAll_le_length level rest
    rw [heightAll, nodesAll, List.length_append]
    omega

end

end Limb

/-! ## Built trees -/

namespace SyntaxTree

namespace Grown

variable {t : SyntaxTree} {l : Limb} (h : t.Grown l)
include h

theorem climbs_iff {id : NodeId} {steps : Nat} :
    t.Climbs id steps ↔ (id, steps + 1) ∈ l.nodes 1 := by
  constructor
  · intro hclimbs
    induction hclimbs with
    | root => exact h.root ▸ l.first_mem_nodes 1
    | child _ hchild ih => exact h.of.child_mem_nodes ih hchild
  · intro hmem
    have hfirst : t.Climbs l.id 0 := h.root ▸ .root
    obtain ⟨n, hn, hclimbs⟩ := h.of.climbs hfirst _ hmem
    rwa [Nat.succ.inj hn]

theorem measures_iff {deepest : Nat} :
    t.Measures [(SyntaxTree.root, 1)] 0 deepest ↔ deepest = t.depth := by
  have hmeasures := h.of.measures 0 0 _ [] (.done _)
  rw [h.root, Nat.zero_max, ← h.depth_eq, Nat.zero_add, Nat.zero_add] at hmeasures
  constructor
  · exact fun h' => h'.unique hmeasures
  · rintro rfl
    exact hmeasures

theorem tallest_iff {height : Nat} :
    t.Tallest [SyntaxTree.root] height ↔ height = t.depth := by
  have htallest := h.of.tallest
  rw [h.root, ← h.depth_eq] at htallest
  constructor
  · exact fun h' => h'.unique htallest
  · rintro rfl
    exact htallest

theorem existsUnique_climbs {id : NodeId} (hid : id < t.size) : ∃! steps, t.Climbs id steps := by
  have hnode := h.once.mem_iff.mpr (List.mem_range.mpr hid)
  obtain ⟨⟨_, level⟩, hmem, rfl⟩ := List.mem_map.mp hnode
  obtain ⟨steps, hlevel, hclimbs⟩ := h.of.climbs (h.root ▸ .root : t.Climbs l.id 0) _ hmem
  refine ⟨steps, hclimbs, fun steps' hclimbs' => ?_⟩
  exact Nat.succ.inj (h.level_unique (h.climbs_iff.mp hclimbs') (h.climbs_iff.mp hclimbs))

theorem isGreatest_climbs :
    IsGreatest {steps | ∃ id < t.size, t.Climbs id steps} (t.depth - 1) := by
  rw [h.depth_eq]
  constructor
  · obtain ⟨⟨id, level⟩, hmem, hlevel⟩ := l.exists_level_eq_height
    have hpos := l.height_pos
    refine ⟨id, h.lt_size hmem, h.climbs_iff.mpr ?_⟩
    rwa [Nat.sub_add_cancel hpos, ← hlevel]
  · rintro steps ⟨id, -, hclimbs⟩
    have hbound := (Limb.height_le_iff 0 l.height l).mp (by omega) _ (h.climbs_iff.mp hclimbs)
    exact Nat.le_sub_one_of_lt hbound

theorem depth_le_size : t.depth ≤ t.size := by
  have hlength := h.once.length_eq
  rw [List.length_map, List.length_range] at hlength
  rw [h.depth_eq, ← hlength]
  exact l.height_le_length 1

theorem depth_push {parent : NodeId} {steps : Nat} (hparent : t.Climbs parent steps)
    (kind : NodeKind) : (t.push parent kind).depth = max t.depth (steps + 2) := by
  have hmem := h.climbs_iff.mp hparent
  rw [(h.push hmem kind).depth_eq, h.height_insert hmem, h.depth_eq]

end Grown

variable {t : SyntaxTree}

/-- The depth is the height. On a tree made by pushes, in whatever order they came under the nodes
that were there, the loop over the stack ends with the depth, which is the height that the
recursion finds. Every node climbs to the root by one number of steps, and the depth is one more
than the largest of them, at most the number of nodes. A push below a node makes the depth that of
the new node, two more than its parent climbs, unless it was as large before. -/
theorem depth_is_height (h : t.Built) :
    (∀ deepest, t.Measures [(root, 1)] 0 deepest ↔ deepest = t.depth) ∧
    (∀ height, t.Tallest [root] height ↔ height = t.depth) ∧
    (∀ id < t.size, ∃! steps, t.Climbs id steps) ∧
    (∃ most, IsGreatest {steps | ∃ id < t.size, t.Climbs id steps} most ∧ t.depth = most + 1) ∧
    t.depth ≤ t.size ∧
    ∀ parent steps, t.Climbs parent steps →
      ∀ kind, (t.push parent kind).depth = max t.depth (steps + 1 + 1) := by
  obtain ⟨l, hl⟩ := h.exists_grown
  have hpos : 0 < t.depth := hl.depth_eq ▸ l.height_pos
  refine ⟨fun _ => hl.measures_iff, fun _ => hl.tallest_iff, fun _ => hl.existsUnique_climbs,
    ⟨t.depth - 1, hl.isGreatest_climbs, (Nat.sub_add_cancel hpos).symm⟩, hl.depth_le_size, ?_⟩
  exact fun _ _ hparent kind => hl.depth_push hparent kind

theorem depth_is_height_interleaved :
    interleaved.Built ∧ interleaved.depth = 3 ∧
    (∀ deepest, interleaved.Measures [(root, 1)] 0 deepest ↔ deepest = interleaved.depth) ∧
    (∀ height, interleaved.Tallest [root] height ↔ height = interleaved.depth) ∧
    (∀ id < interleaved.size, ∃! steps, interleaved.Climbs id steps) ∧
    (∃ most, IsGreatest {steps | ∃ id < interleaved.size, interleaved.Climbs id steps} most ∧
      interleaved.depth = most + 1) ∧
    interleaved.depth ≤ interleaved.size ∧
    interleaved.Climbs 3 2 ∧ (interleaved.push 3 .identifier).depth = 4 := by
  obtain ⟨hmeasures, htallest, hclimbs, hgreatest, hsize, hpush⟩ :=
    depth_is_height built_interleaved
  have hthree : interleaved.Climbs 3 2 :=
    .child (.child .root (show 2 ∈ interleaved.children 0 by decide)) (by decide)
  exact ⟨built_interleaved, by decide, hmeasures, htallest, hclimbs, hgreatest, hsize, hthree,
    hpush 3 2 hthree .identifier⟩

end SyntaxTree

end ScriptFeatures.Tree
