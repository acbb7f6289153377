import Mathlib.Algebra.BigOperators.Group.List.Basic
import Mathlib.Algebra.Ring.Nat
import ScriptFeatures.Proofs.Tree.Limb

/-! Walks visit every node once and in pre-order.

* `PreOrder` is the recursion that a walk does without: the nodes of a row of siblings, each
  followed by what is below it. Nothing in it says that it ends.
* `Yields` unrolls the explicit stack, one node a step. On every arena a walk yields what the
  recursion lists (`yields_iff_preOrder`), whether either of them ends or not.
* `Built` trees have a term, so there both end after as many steps as there are nodes, and the
  counts of a walk are those of the arena, up to the 32 bits of the counters (`mem_counts`,
  `count_mod`). -/

namespace ScriptFeatures.Tree

namespace SyntaxTree

/-- Trees made by pushes under nodes that are there. -/
inductive Built : SyntaxTree → Prop
  | new (root : NodeKind) : Built (.new root)
  | push {t : SyntaxTree} (before : Built t) {parent : NodeId} (hparent : parent < t.size)
      (kind : NodeKind) : Built (t.push parent kind)

/-- The nodes below a row of siblings in pre-order: a node, then what is below it, then the
siblings after it with what is below them. -/
inductive PreOrder (t : SyntaxTree) : List NodeId → List NodeId → Prop
  | nil : PreOrder t [] []
  | cons {id : NodeId} {siblings below after : List NodeId}
      (hbelow : PreOrder t (t.children id) below) (hafter : PreOrder t siblings after) :
      PreOrder t (id :: siblings) (id :: (below ++ after))

/-- One step of a walk: the next node, and the stack that is left. -/
def next? (t : SyntaxTree) : List NodeId → Option (NodeId × List NodeId)
  | [] => none
  | id :: stack => some (id, t.children id ++ stack)

/-- A walk from a stack yields some nodes and ends. -/
inductive Yields (t : SyntaxTree) : List NodeId → List NodeId → Prop
  | done {stack : List NodeId} (hnext : t.next? stack = none) : Yields t stack []
  | next {stack stack' ids : List NodeId} {id : NodeId} (hnext : t.next? stack = some (id, stack'))
      (hrest : Yields t stack' ids) : Yields t stack (id :: ids)

variable {t : SyntaxTree}

/-! ## The stack and the recursion -/

theorem PreOrder.append {xs ys below after : List NodeId} (hx : t.PreOrder xs below)
    (hy : t.PreOrder ys after) : t.PreOrder (xs ++ ys) (below ++ after) := by
  induction hx with
  | nil => exact hy
  | cons hbelow _ _ ih =>
    rw [List.cons_append, List.cons_append, List.append_assoc]
    exact hbelow.cons ih

theorem PreOrder.exists_of_append {xs ys ids : List NodeId} (h : t.PreOrder (xs ++ ys) ids) :
    ∃ below after, ids = below ++ after ∧ t.PreOrder xs below ∧ t.PreOrder ys after := by
  induction xs generalizing ids with
  | nil => exact ⟨[], ids, rfl, .nil, h⟩
  | cons x xs ih =>
    cases h with
    | @cons _ _ below rest hbelow hrest =>
      obtain ⟨between, after, rfl, hbetween, hafter⟩ := ih hrest
      refine ⟨x :: (below ++ between), after, ?_, hbelow.cons hbetween, hafter⟩
      rw [List.cons_append, List.append_assoc]

theorem Yields.preOrder {stack ids : List NodeId} (h : t.Yields stack ids) :
    t.PreOrder stack ids := by
  induction h with
  | @done stack hnext =>
    cases stack with
    | nil => exact .nil
    | cons id stack => exact nomatch hnext
  | @next stack stack' ids id hnext _ ih =>
    cases stack with
    | nil => exact nomatch hnext
    | cons id stack =>
      cases hnext
      obtain ⟨below, after, rfl, hbelow, hafter⟩ := ih.exists_of_append
      exact hbelow.cons hafter

theorem PreOrder.yields {stack ids : List NodeId} (h : t.PreOrder stack ids) :
    t.Yields stack ids := by
  cases h with
  | nil => exact .done rfl
  | @cons id siblings below after hbelow hafter => exact .next rfl (hbelow.append hafter).yields
termination_by ids.length

/-- The explicit stack does what the recursion does. -/
theorem yields_iff_preOrder {stack ids : List NodeId} :
    t.Yields stack ids ↔ t.PreOrder stack ids :=
  ⟨Yields.preOrder, PreOrder.yields⟩

theorem Yields.unique {stack ids ids' : List NodeId} (h : t.Yields stack ids)
    (h' : t.Yields stack ids') : ids = ids' := by
  induction h generalizing ids' with
  | done hnext =>
    cases h' with
    | done => rfl
    | next hnext' => exact nomatch hnext.symm.trans hnext'
  | next hnext _ ih =>
    cases h' with
    | done hnext' => exact nomatch hnext.symm.trans hnext'
    | next hnext' hrest' =>
      cases hnext.symm.trans hnext'
      rw [ih hrest']

/-- A walk that may take a step for each node it yields has them all. -/
theorem Yields.walkFrom_eq {stack ids : List NodeId} (h : t.Yields stack ids)
    (visited : Array NodeId) : t.walkFrom ids.length stack visited = visited ++ ids.toArray := by
  induction h generalizing visited with
  | done => simp [walkFrom]
  | @next stack stack' ids id hnext _ ih =>
    cases stack with
    | nil => exact nomatch hnext
    | cons id stack =>
      cases hnext
      rw [List.length_cons, walkFrom, ih]
      simp

end SyntaxTree

/-! ## Trees that hold a term -/

theorem Limb.preOrder_limbs {t : SyntaxTree} {level : Nat} {limbs : List Limb}
    (h : ∀ l ∈ limbs, t.PreOrder [l.id] ((l.nodes level).map Prod.fst)) :
    t.PreOrder (limbs.map Limb.id) ((nodesAll level limbs).map Prod.fst) := by
  induction limbs with
  | nil => exact .nil
  | cons l rest ih =>
    rw [nodesAll, List.map_append]
    exact (h l List.mem_cons_self).append (ih fun l hl => h l (List.mem_cons_of_mem _ hl))

/-- The recursion over an arena that holds a limb lists the nodes of the limb. -/
theorem Limb.Of.preOrder {t : SyntaxTree} {l : Limb} (h : l.Of t) (level : Nat) :
    t.PreOrder [l.id] ((l.nodes level).map Prod.fst) := by
  induction h generalizing level with
  | @node id limbs hchildren _ ih =>
    have hbelow := preOrder_limbs fun l hl => ih l hl (level + 1)
    rw [← hchildren] at hbelow
    rw [nodes, List.map_cons, ← List.append_nil (List.map _ _)]
    exact .cons hbelow .nil

namespace SyntaxTree

variable {t : SyntaxTree}

theorem Built.exists_grown (h : t.Built) : ∃ l, t.Grown l := by
  induction h with
  | new root => exact ⟨_, .new root⟩
  | @push t _ parent hparent kind ih =>
    obtain ⟨l, hl⟩ := ih
    have hnode := hl.once.mem_iff.mpr (List.mem_range.mpr hparent)
    obtain ⟨⟨_, d⟩, hmem, rfl⟩ := List.mem_map.mp hnode
    exact ⟨_, hl.push hmem kind⟩

/-- Children stand in the order of their pushes, which is that of their numbers. -/
theorem Built.children_increasing (h : t.Built) (id : NodeId) :
    (t.children id).Pairwise (· < ·) ∧ ∀ c ∈ t.children id, c < t.size := by
  induction h with
  | new root =>
    have hnil : (SyntaxTree.new root).children id = [] := by cases id <;> rfl
    rw [hnil]
    exact ⟨.nil, fun _ hc => nomatch hc⟩
  | @push t _ parent hparent kind ih =>
    obtain ⟨hincreasing, hlt⟩ := ih
    rw [children_push hparent, size_push]
    split
    · refine ⟨List.pairwise_append.mpr ⟨hincreasing, List.pairwise_singleton _ _, ?_⟩, ?_⟩
      · intro c hc new hnew
        rw [List.mem_singleton.mp hnew]
        exact hlt c hc
      · intro c hc
        obtain hc | hc := List.mem_append.mp hc
        · exact Nat.lt_succ_of_lt (hlt c hc)
        · rw [List.mem_singleton.mp hc]
          exact Nat.lt_succ_self _
    · exact ⟨hincreasing, fun c hc => Nat.lt_succ_of_lt (hlt c hc)⟩

/-- The walk of a built tree ends and has yielded every node once. -/
theorem Built.yields_walk (h : t.Built) :
    t.Yields [root] t.walk ∧ t.walk.Perm (List.range t.size) := by
  obtain ⟨l, hl⟩ := h.exists_grown
  have hyields := (hl.of.preOrder 1).yields
  have hsize := hl.once.length_eq
  rw [List.length_range] at hsize
  have hwalk := hyields.walkFrom_eq #[]
  rw [hl.root, hsize] at hwalk
  rw [hl.root] at hyields
  rw [walk, hwalk, Array.empty_append]
  exact ⟨hyields, hl.once⟩

/-! ## Counts -/

theorem filterMap_kind?_range (t : SyntaxTree) :
    (List.range t.size).filterMap t.kind? = t.nodes.toList.map Node.kind := by
  have hkind (i : Nat) : t.kind? i = (t.nodes.toList.map Node.kind)[i]? := by
    rw [kind?, List.getElem?_map, Array.getElem?_toList]
  have hsize : t.size = (t.nodes.toList.map Node.kind).length := by
    rw [List.length_map]
    rfl
  rw [hsize, funext hkind]
  induction t.nodes.toList.map Node.kind with
  | nil => rfl
  | cons k kinds ih =>
    rw [List.length_cons, List.range_succ_eq_map, List.filterMap_cons, List.filterMap_map]
    exact congrArg (k :: ·) ih

/-- A walk of a built tree meets the kinds of the arena. -/
theorem Built.kinds_perm (h : t.Built) : t.kinds.Perm (t.nodes.toList.map Node.kind) := by
  rw [← filterMap_kind?_range]
  exact h.yields_walk.2.filterMap _

end SyntaxTree

theorem NodeKind.count_all (k : NodeKind) : NodeKind.all.count k = 1 := by
  cases k <;> rfl

theorem NodeKind.mem_all (k : NodeKind) : k ∈ NodeKind.all := by
  rw [← List.count_pos_iff, k.count_all]
  exact Nat.one_pos

/-- The kinds occur as often as all of them together. -/
theorem NodeKind.sum_count_all (kinds : List NodeKind) :
    (NodeKind.all.map kinds.count).sum = kinds.length := by
  induction kinds with
  | nil => rfl
  | cons k kinds ih =>
    have hone : (NodeKind.all.map fun k' => if k == k' then 1 else 0).sum = 1 := by
      cases k <;> rfl
    have hcount : (k :: kinds).count = fun k' => kinds.count k' + if k == k' then 1 else 0 :=
      funext fun k' => List.count_cons
    rw [hcount, List.sum_map_add, ih, hone, List.length_cons]

namespace SyntaxTree

variable {t : SyntaxTree}

theorem filterMap_ite (n value : NodeKind → Nat) (kinds : List NodeKind) :
    (kinds.filterMap fun k => if n k = 0 then none else some (k, value k)) =
      (kinds.filter fun k => n k ≠ 0).map fun k => (k, value k) := by
  induction kinds with
  | nil => rfl
  | cons k rest ih =>
    by_cases hk : n k = 0
    · simp [hk, ih]
    · simp [hk, ih]

theorem counts_eq (t : SyntaxTree) :
    t.counts = (NodeKind.all.filter fun k => t.kinds.count k ≠ 0).map
      fun k => (k, t.kinds.count k % UInt32.size) :=
  filterMap_ite _ _ _

/-- The kinds that are counted stand in declaration order. -/
theorem counts_sublist (t : SyntaxTree) : (t.counts.map Prod.fst).Sublist NodeKind.all := by
  have hkeys : t.counts.map Prod.fst = NodeKind.all.filter fun k => t.kinds.count k ≠ 0 := by
    rw [counts_eq, List.map_map]
    exact List.map_id _
  rw [hkeys]
  exact List.filter_sublist

theorem mem_counts {kind : NodeKind} {n : Nat} :
    (kind, n) ∈ t.counts ↔ kind ∈ t.kinds ∧ n = t.kinds.count kind % UInt32.size := by
  rw [counts_eq, List.mem_map, ← List.count_pos_iff, Nat.pos_iff_ne_zero]
  constructor
  · rintro ⟨k, hk, hpair⟩
    cases hpair
    exact ⟨of_decide_eq_true (List.mem_filter.mp hk).2, rfl⟩
  · rintro ⟨hn, rfl⟩
    exact ⟨kind, List.mem_filter.mpr ⟨kind.mem_all, decide_eq_true hn⟩, rfl⟩

theorem mem_map_fst_counts {kind : NodeKind} :
    kind ∈ t.counts.map Prod.fst ↔ kind ∈ t.kinds := by
  rw [List.mem_map]
  constructor
  · rintro ⟨⟨k, n⟩, hmem, rfl⟩
    exact (mem_counts.mp hmem).1
  · intro hkind
    exact ⟨(kind, _), mem_counts.mpr ⟨hkind, rfl⟩, rfl⟩

theorem lookup_filterMap_ite {n value : NodeKind → Nat} (h : ∀ k, n k = 0 → value k = 0)
    (kind : NodeKind) (kinds : List NodeKind) :
    ((kinds.filterMap fun k => if n k = 0 then none else some (k, value k)).lookup kind).getD 0 =
      if kind ∈ kinds then value kind else 0 := by
  induction kinds with
  | nil => rfl
  | cons k rest ih =>
    by_cases hk : kind = k
    · subst hk
      by_cases hn : n kind = 0
      · simp [hn, ih, h kind hn]
      · simp [hn]
    · by_cases hn : n k = 0
      · simp [hn, ih, hk]
      · simp [hn, ih, hk, List.lookup_cons, beq_eq_false_iff_ne.mpr hk]

/-- The count of a kind that does not occur reads as 0. -/
theorem lookup_counts (t : SyntaxTree) (kind : NodeKind) :
    (t.counts.lookup kind).getD 0 = t.kinds.count kind % UInt32.size := by
  have hzero (k : NodeKind) (hk : t.kinds.count k = 0) : t.kinds.count k % UInt32.size = 0 := by
    rw [hk, Nat.zero_mod]
  rw [counts, lookup_filterMap_ite hzero, if_pos kind.mem_all]

/-- No counter is full in a tree of fewer than `2 ^ 32` nodes. -/
theorem count_mod (h : t.kinds.length < UInt32.size) (kind : NodeKind) :
    t.kinds.count kind % UInt32.size = t.kinds.count kind :=
  Nat.mod_eq_of_lt (Nat.lt_of_le_of_lt List.count_le_length h)

theorem sum_counts (h : t.kinds.length < UInt32.size) :
    (t.counts.map Prod.snd).sum = t.kinds.length := by
  have hvalues : t.counts.map Prod.snd =
      (NodeKind.all.filter fun k => t.kinds.count k ≠ 0).map t.kinds.count := by
    rw [counts_eq, List.map_map]
    exact List.map_congr_left fun k _ => count_mod h k
  rw [← NodeKind.sum_count_all, hvalues]
  induction NodeKind.all with
  | nil => rfl
  | cons k rest ih =>
    by_cases hk : t.kinds.count k = 0
    · simpa [hk] using ih
    · simpa [hk] using ih

theorem Built.length_kinds (h : t.Built) : t.kinds.length = t.size := by
  rw [h.kinds_perm.length_eq, List.length_map]
  rfl

theorem Built.count_kinds (h : t.Built) (kind : NodeKind) :
    t.kinds.count kind = t.nodes.toList.countP fun node => node.kind = kind := by
  rw [h.kinds_perm.count_eq, List.count, List.countP_map]
  rfl

theorem Built.mem_kinds (h : t.Built) {kind : NodeKind} :
    kind ∈ t.kinds ↔ ∃ node ∈ t.nodes, node.kind = kind := by
  rw [h.kinds_perm.mem_iff, List.mem_map]
  simp only [Array.mem_toList_iff]

/-- Walks and counts are complete. On a tree made by pushes, in whatever order they came under the
nodes that were there, children stand in the order of their pushes, and the walk ends and has
yielded each node once, in the order of the recursion, which ends as well. The counts have the kinds
that occur and no others, each with the number of its nodes in the arena modulo `2 ^ 32`. In a tree
of fewer nodes they are these numbers, and add up to the number of nodes. -/
theorem walk_complete (h : t.Built) :
    (∀ id, (t.children id).Pairwise (· < ·)) ∧
    (∀ ids, t.Yields [root] ids ↔ ids = t.walk) ∧
    (∀ ids, t.PreOrder [root] ids ↔ ids = t.walk) ∧
    t.walk.Perm (List.range t.size) ∧
    (t.counts.map Prod.fst).Sublist NodeKind.all ∧
    (∀ kind n, (kind, n) ∈ t.counts ↔ (∃ node ∈ t.nodes, node.kind = kind) ∧
      n = (t.nodes.toList.countP fun node => node.kind = kind) % UInt32.size) ∧
    (t.size < UInt32.size →
      (∀ kind n, (kind, n) ∈ t.counts ↔
        n ≠ 0 ∧ n = t.nodes.toList.countP fun node => node.kind = kind) ∧
      (t.counts.map Prod.snd).sum = t.size) := by
  obtain ⟨hyields, hnodes⟩ := h.yields_walk
  have hwalk (ids : List NodeId) : t.Yields [root] ids ↔ ids = t.walk := by
    constructor
    · intro h'
      exact h'.unique hyields
    · rintro rfl
      exact hyields
  refine ⟨fun id => (h.children_increasing id).1, hwalk, fun ids => ?_, hnodes, t.counts_sublist,
    fun kind n => ?_, fun hsize => ⟨fun kind n => ?_, ?_⟩⟩
  · rw [← yields_iff_preOrder, hwalk]
  · rw [mem_counts, h.mem_kinds, h.count_kinds]
  · rw [← h.length_kinds] at hsize
    rw [mem_counts, count_mod hsize, ← h.count_kinds, ← List.count_pos_iff, Nat.pos_iff_ne_zero]
    refine and_congr_left ?_
    rintro rfl
    exact Iff.rfl
  · rw [← h.length_kinds] at hsize ⊢
    exact sum_counts hsize

/-- Two statements of which the first gets its child last. -/
def interleaved : SyntaxTree :=
  ((((SyntaxTree.new .program).push 0 .expressionStatement).push 0 .blockStatement).push 2
    .emptyStatement).push 1 .callExpression

theorem built_interleaved : interleaved.Built :=
  .push (.push (.push (.push (.new _) (by decide) _) (by decide) _) (by decide) _) (by decide) _

theorem walk_complete_interleaved :
    interleaved.Built ∧ interleaved.walk = [0, 1, 4, 2, 3] ∧ interleaved.size < UInt32.size ∧
    (∀ id, (interleaved.children id).Pairwise (· < ·)) ∧
    (∀ ids, interleaved.Yields [root] ids ↔ ids = interleaved.walk) ∧
    (∀ ids, interleaved.PreOrder [root] ids ↔ ids = interleaved.walk) ∧
    interleaved.walk.Perm (List.range interleaved.size) ∧
    (interleaved.counts.map Prod.fst).Sublist NodeKind.all ∧
    (∀ kind n, (kind, n) ∈ interleaved.counts ↔
      n ≠ 0 ∧ n = interleaved.nodes.toList.countP fun node => node.kind = kind) ∧
    (interleaved.counts.map Prod.snd).sum = interleaved.size := by
  have hsize : interleaved.size < UInt32.size := by decide
  obtain ⟨hchildren, hyields, hpreOrder, hnodes, hkinds, -, hexact⟩ :=
    walk_complete built_interleaved
  exact ⟨built_interleaved, by decide, hsize, hchildren, hyields, hpreOrder, hnodes, hkinds,
    hexact hsize⟩

end SyntaxTree

end ScriptFeatures.Tree
