import ScriptFeatures.Proofs.Tree.Limb
import ScriptFeatures.Tree.Growth

/-! Growing without a limit, and what a limit changes. `Growth.sprout` plants whatever is given to
it; `Growth.plant` gives the same planter or none, and which of the two depends on
`Growth.entered` alone (`plant_eq`). Leaves are no part of that measure, so a tree that is planted
may be one level deeper than the limit (`height_le_entered`). -/

namespace ScriptFeatures.Tree

mutual

/-- Adds a growth below the current node, however long the path becomes. -/
def Growth.sprout : Growth → Planter → Planter
  | .leaf kind, p => p.leaf kind
  | .node kind children, p => (Growth.sproutAll children (p.enter kind)).leave
  | .loopVariable children, p =>
    let inside := (p.enter .variableDeclaration).enter .variableDeclarator
    (Growth.sproutAll children inside).leave.leave

/-- Adds growths below the current node in order. -/
def Growth.sproutAll : List Growth → Planter → Planter
  | [], p => p
  | g :: rest, p => Growth.sproutAll rest (g.sprout p)

end

/-- The tree with the given growths below its root. -/
def SyntaxTree.grow (root : NodeKind) (growths : List Growth) : SyntaxTree :=
  (Growth.sproutAll growths (.new root)).tree

namespace Growth

mutual

/-- The number of levels that a growth adds below the current node. -/
def height : Growth → Nat
  | .leaf _ => 1
  | .node _ children => heightAll children + 1
  | .loopVariable children => heightAll children + 2

/-- The number of levels that several growths add. -/
def heightAll : List Growth → Nat
  | [] => 0
  | g :: rest => max g.height (heightAll rest)

end

mutual

/-- The number of levels at which a growth enters a node: those that a limit looks at. -/
def entered : Growth → Nat
  | .leaf _ => 0
  | .node _ children => enteredAll children + 1
  | .loopVariable children => enteredAll children + 2

/-- The number of levels at which several growths enter a node. -/
def enteredAll : List Growth → Nat
  | [] => 0
  | g :: rest => max g.entered (enteredAll rest)

end

theorem entered_le_enteredAll {g : Growth} {gs : List Growth} (h : g ∈ gs) :
    g.entered ≤ enteredAll gs := by
  induction gs with
  | nil => exact absurd h List.not_mem_nil
  | cons first rest ih =>
    rw [enteredAll]
    obtain rfl | h := List.mem_cons.mp h
    · exact Nat.le_max_left _ _
    · exact Nat.le_trans (ih h) (Nat.le_max_right _ _)

mutual

theorem entered_le_height : ∀ g : Growth, g.entered ≤ g.height
  | .leaf _ => by
    rw [entered]
    exact Nat.zero_le _
  | .node _ children => by
    have := enteredAll_le_heightAll children
    rw [entered, height]
    omega
  | .loopVariable children => by
    have := enteredAll_le_heightAll children
    rw [entered, height]
    omega

theorem enteredAll_le_heightAll : ∀ gs : List Growth, enteredAll gs ≤ heightAll gs
  | [] => Nat.le_refl _
  | g :: rest => by
    have hg := entered_le_height g
    have hrest := enteredAll_le_heightAll rest
    rw [enteredAll, heightAll]
    omega

end

mutual

/-- Only a leaf can lie below the last level that is entered. -/
theorem height_le_entered : ∀ g : Growth, g.height ≤ g.entered + 1
  | .leaf _ => Nat.le_refl _
  | .node _ children => by
    have := heightAll_le_enteredAll children
    rw [entered, height]
    omega
  | .loopVariable children => by
    have := heightAll_le_enteredAll children
    rw [entered, height]
    omega

theorem heightAll_le_enteredAll : ∀ gs : List Growth, heightAll gs ≤ enteredAll gs + 1
  | [] => Nat.zero_le _
  | g :: rest => by
    have hg := height_le_entered g
    have hrest := heightAll_le_enteredAll rest
    rw [enteredAll, heightAll]
    omega

end

end Growth

/-! ## The path -/

namespace Planter

@[simp]
theorem path_leaf (p : Planter) (kind : NodeKind) : (p.leaf kind).path = p.path := rfl

@[simp]
theorem path_enter (p : Planter) (kind : NodeKind) :
    (p.enter kind).path = p.path.push p.tree.size := rfl

@[simp]
theorem path_leave (p : Planter) : p.leave.path = p.path.pop := rfl

end Planter

namespace Growth

mutual

/-- The path is the same before and after a growth. -/
theorem path_sprout : ∀ (g : Growth) (p : Planter), (g.sprout p).path = p.path
  | .leaf _, _ => rfl
  | .node kind children, p => by
    rw [sprout, Planter.path_leave, path_sproutAll children, Planter.path_enter, Array.pop_push]
  | .loopVariable children, p => by
    rw [sprout, Planter.path_leave, Planter.path_leave, path_sproutAll children,
      Planter.path_enter, Array.pop_push, Planter.path_enter, Array.pop_push]

theorem path_sproutAll : ∀ (gs : List Growth) (p : Planter), (sproutAll gs p).path = p.path
  | [], _ => rfl
  | g :: rest, p => by rw [sproutAll, path_sproutAll rest, path_sprout g]

end

/-! ## What a limit changes -/

/-- Whether growths that enter `entered` levels fit below a path of `length` nodes. What enters
nothing is not looked at. -/
def Fits (limit length entered : Nat) : Prop :=
  entered = 0 ∨ length + entered ≤ limit

instance (limit length entered : Nat) : Decidable (Fits limit length entered) :=
  inferInstanceAs (Decidable (_ ∨ _))

theorem fits_zero (limit length : Nat) : Fits limit length 0 := Or.inl rfl

theorem fits_succ (limit length n : Nat) :
    Fits limit length (n + 1) ↔ length < limit ∧ Fits limit (length + 1) n := by
  simp only [Fits]
  omega

theorem fits_max (limit length m n : Nat) :
    Fits limit length (max m n) ↔ Fits limit length m ∧ Fits limit length n := by
  simp only [Fits]
  omega

mutual

/-- A limit lets a growth through as it is, or not at all. -/
theorem plant_eq (limit : Nat) : ∀ (g : Growth) (p : Planter),
    g.plant limit p = if Fits limit p.path.size g.entered then some (g.sprout p) else none
  | .leaf kind, p => by rw [plant, sprout, entered, if_pos (fits_zero limit _)]
  | .node kind children, p => by
    have hfits := fits_succ limit p.path.size (enteredAll children)
    rw [plant, sprout, entered, plantAll_eq limit children, Planter.path_enter, Array.size_push]
    by_cases hpath : limit ≤ p.path.size
    · rw [if_pos hpath, if_neg fun h => absurd (hfits.mp h).1 (Nat.not_lt.mpr hpath)]
    · rw [if_neg hpath]
      by_cases hbelow : Fits limit (p.path.size + 1) (enteredAll children)
      · rw [if_pos hbelow, if_pos (hfits.mpr ⟨Nat.not_le.mp hpath, hbelow⟩), Option.map_some]
      · rw [if_neg hbelow, if_neg fun h => hbelow (hfits.mp h).2, Option.map_none]
  | .loopVariable children, p => by
    have houter := fits_succ limit p.path.size (enteredAll children + 1)
    have hinner := fits_succ limit (p.path.size + 1) (enteredAll children)
    have hsize : ((p.enter .variableDeclaration).enter .variableDeclarator).path.size =
        p.path.size + 1 + 1 := by
      rw [Planter.path_enter, Array.size_push, Planter.path_enter, Array.size_push]
    rw [plant, sprout, entered]
    by_cases hpath : limit ≤ p.path.size + 1
    · rw [if_pos hpath,
        if_neg fun h => absurd (hinner.mp (houter.mp h).2).1 (Nat.not_lt.mpr hpath)]
    · -- one comparison stands for both nodes: the outer one fits if the inner one does
      have hlt : p.path.size + 1 < limit := Nat.not_le.mp hpath
      rw [if_neg hpath]
      simp only [plantAll_eq limit children, hsize]
      by_cases hbelow : Fits limit (p.path.size + 1 + 1) (enteredAll children)
      · rw [if_pos hbelow, if_pos (houter.mpr ⟨by omega, hinner.mpr ⟨hlt, hbelow⟩⟩),
          Option.map_some]
      · rw [if_neg hbelow, if_neg fun h => hbelow (hinner.mp (houter.mp h).2).2,
          Option.map_none]

theorem plantAll_eq (limit : Nat) : ∀ (gs : List Growth) (p : Planter),
    plantAll limit gs p =
      if Fits limit p.path.size (enteredAll gs) then some (sproutAll gs p) else none
  | [], p => by rw [plantAll, sproutAll, enteredAll, if_pos (fits_zero limit _)]
  | g :: rest, p => by
    have hmax := fits_max limit p.path.size g.entered (enteredAll rest)
    rw [plantAll, plant_eq limit g, sproutAll, enteredAll]
    by_cases hg : Fits limit p.path.size g.entered
    · rw [if_pos hg]
      simp only [plantAll_eq limit rest, path_sprout]
      by_cases hrest : Fits limit p.path.size (enteredAll rest)
      · rw [if_pos hrest, if_pos (hmax.mpr ⟨hg, hrest⟩)]
      · rw [if_neg hrest, if_neg fun h => hrest (hmax.mp h).2]
    · rw [if_neg hg, if_neg fun h => hg (hmax.mp h).1]

end

end Growth

/-! ## The depth of what is grown -/

namespace Planter

/-- The invariant of planting: the arena is the limb `l`, and the path starts at its first node and
goes down one level at a time. -/
structure Holds (p : Planter) (l : Limb) : Prop where
  grown : p.tree.Grown l
  start : 0 < p.path.size
  level : ∀ i (h : i < p.path.size), (p.path[i], i + 1) ∈ l.nodes 1

namespace Holds

variable {p : Planter} {l : Limb}

theorem new (root : NodeKind) : (Planter.new root).Holds (.node SyntaxTree.root []) where
  grown := .new root
  start := Nat.one_pos
  level := by
    intro i h
    have hi : i = 0 := Nat.lt_one_iff.mp h
    subst hi
    exact List.mem_singleton.mpr rfl

theorem current_mem (h : p.Holds l) : (p.current, p.path.size) ∈ l.nodes 1 := by
  have hstart := h.start
  have := h.level (p.path.size - 1) (by omega)
  rw [Nat.sub_add_cancel hstart] at this
  rw [current, Array.back?_eq_getElem?, Array.getElem?_eq_getElem (by omega)]
  exact this

theorem size_le_height (h : p.Holds l) : p.path.size ≤ l.height := by
  have := (Limb.height_le_iff 0 l.height l).mp (by omega) _ h.current_mem
  exact this

theorem leaf (h : p.Holds l) (kind : NodeKind) :
    (p.leaf kind).Holds (l.insert p.current p.tree.size) where
  grown := h.grown.push h.current_mem kind
  start := h.start
  level := fun i hi => (h.grown.mem_nodes_insert h.current_mem _).mpr (.inl (h.level i hi))

theorem enter (h : p.Holds l) (kind : NodeKind) :
    (p.enter kind).Holds (l.insert p.current p.tree.size) where
  grown := h.grown.push h.current_mem kind
  start := by
    rw [path_enter, Array.size_push]
    omega
  level := by
    intro i hi
    refine (h.grown.mem_nodes_insert h.current_mem _).mpr ?_
    simp only [path_enter, Array.getElem_push]
    rw [path_enter, Array.size_push] at hi
    split
    · rename_i hold
      exact .inl (h.level i hold)
    · rename_i hlast
      have : i = p.path.size := by omega
      rw [this]
      exact .inr rfl

theorem leave (h : p.Holds l) (hsize : 1 < p.path.size) : p.leave.Holds l where
  grown := h.grown
  start := by
    rw [path_leave, Array.size_pop]
    omega
  level := by
    intro i hi
    rw [path_leave, Array.size_pop] at hi
    have := h.level i (by omega)
    simpa only [path_leave, Array.getElem_pop] using this

theorem height_push (h : p.Holds l) :
    (l.insert p.current p.tree.size).height = max l.height (p.path.size + 1) :=
  h.grown.height_insert h.current_mem

end Holds

end Planter

namespace Growth

open Planter (Holds)

mutual

/-- A growth makes the tree as deep as the path and the growth together, if it was not before. -/
theorem holds_sprout : ∀ (g : Growth) {p : Planter} {l : Limb}, p.Holds l →
    ∃ l', (g.sprout p).Holds l' ∧ l'.height = max l.height (p.path.size + g.height)
  | .leaf kind, p, l, h => ⟨_, h.leaf kind, by rw [h.height_push, height]⟩
  | .node kind children, p, l, h => by
    have hinside := h.enter kind
    obtain ⟨l', hl', hheight⟩ := holds_sproutAll children hinside
    refine ⟨l', ?_, ?_⟩
    · rw [sprout]
      refine hl'.leave ?_
      have := h.start
      rw [path_sproutAll, Planter.path_enter, Array.size_push]
      omega
    · rw [hheight, h.height_push, Planter.path_enter, Array.size_push, height]
      omega
  | .loopVariable children, p, l, h => by
    have houter := h.enter .variableDeclaration
    have hinside := houter.enter .variableDeclarator
    obtain ⟨l', hl', hheight⟩ := holds_sproutAll children hinside
    have hsize : ((p.enter .variableDeclaration).enter .variableDeclarator).path.size =
        p.path.size + 2 := by
      rw [Planter.path_enter, Array.size_push, Planter.path_enter, Array.size_push]
    have hsame : (sproutAll children
        ((p.enter .variableDeclaration).enter .variableDeclarator)).path.size =
          p.path.size + 2 := by
      rw [path_sproutAll, hsize]
    have := h.start
    refine ⟨l', ?_, ?_⟩
    · rw [sprout]
      refine (hl'.leave (by omega)).leave ?_
      rw [Planter.path_leave, Array.size_pop, hsame]
      omega
    · rw [hheight, hsize, houter.height_push, h.height_push, Planter.path_enter, Array.size_push,
        height]
      omega

theorem holds_sproutAll : ∀ (gs : List Growth) {p : Planter} {l : Limb}, p.Holds l →
    ∃ l', (sproutAll gs p).Holds l' ∧ l'.height = max l.height (p.path.size + heightAll gs)
  | [], p, l, h => by
    have := h.size_le_height
    exact ⟨l, h, by rw [heightAll]; omega⟩
  | g :: rest, p, l, h => by
    obtain ⟨m, hm, hg⟩ := holds_sprout g h
    obtain ⟨l', hl', hrest⟩ := holds_sproutAll rest hm
    refine ⟨l', hl', ?_⟩
    rw [hrest, hg, path_sprout, heightAll]
    omega

end

end Growth

namespace SyntaxTree

/-- A tree is one level deeper than what grows below its root. -/
theorem depth_grow (root : NodeKind) (growths : List Growth) :
    (grow root growths).depth = Growth.heightAll growths + 1 := by
  obtain ⟨l, hl, hheight⟩ := Growth.holds_sproutAll growths (Planter.Holds.new root)
  have hsize : (Planter.new root).path.size = 1 := rfl
  rw [grow, hl.grown.depth_eq, hheight, hsize, Limb.height, Limb.heightAll]
  omega

/-- A limit lets a tree through as it is, or not at all. -/
theorem grow?_eq (root : NodeKind) (limit : Nat) (growths : List Growth) :
    grow? root limit growths =
      if Growth.enteredAll growths = 0 ∨ Growth.enteredAll growths + 1 ≤ limit then
        some (grow root growths)
      else none := by
  have hfits : Growth.Fits limit (Planter.new root).path.size (Growth.enteredAll growths) ↔
      Growth.enteredAll growths = 0 ∨ Growth.enteredAll growths + 1 ≤ limit := by
    have hsize : (Planter.new root).path.size = 1 := rfl
    rw [Growth.Fits, hsize, Nat.add_comm]
  rw [grow?, Growth.plantAll_eq, grow]
  by_cases h : Growth.Fits limit (Planter.new root).path.size (Growth.enteredAll growths)
  · rw [if_pos h, if_pos (hfits.mp h), Option.map_some]
  · rw [if_neg h, if_neg fun h' => h (hfits.mpr h'), Option.map_none]

end SyntaxTree

end ScriptFeatures.Tree
