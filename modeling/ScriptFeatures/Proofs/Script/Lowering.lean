import ScriptFeatures.Proofs.Tree.Growth
import ScriptFeatures.Script.Lowering

/-! The tree of a script without a limit, and how much of its depth a limit sees. Every statement
adds one node that is entered (`lower_statement`), so an empty script is the only one of which the
limit sees nothing. -/

namespace ScriptFeatures.Script

open ScriptFeatures.Tree

/-- A statement adds one node, which is entered. -/
theorem Phrase.lower_statement (s : Statement) (before : List Growth) :
    ∃ kind children, s.lower before = .node kind children :: before := by
  cases s <;> exact ⟨_, _, rfl⟩

theorem mem_foldl_lower {g : Growth} (statements : List Statement) {before : List Growth}
    (h : g ∈ before) : g ∈ statements.foldl (fun before s => s.lower before) before := by
  induction statements generalizing before with
  | nil => exact h
  | cons s rest ih =>
    obtain ⟨kind, children, hs⟩ := s.lower_statement before
    have hmem : g ∈ s.lower before := by
      rw [hs]
      exact List.mem_cons_of_mem _ h
    exact ih hmem

namespace Program

/-- The tree of a script, however deep it is. -/
def tree (s : Program) : SyntaxTree :=
  .grow .program s.growths

/-- The depth of the part of the tree that lowering compares with its limit: the root and the nodes
that are entered, but no leaves. A script without statements has nothing that is compared. -/
def checkedDepth (s : Program) : Nat :=
  if s.statements = [] then 0 else Growth.enteredAll s.growths + 1

theorem entered_eq_zero_iff (s : Program) :
    Growth.enteredAll s.growths = 0 ↔ s.statements = [] := by
  constructor
  · intro h
    cases hs : s.statements with
    | nil => rfl
    | cons first rest =>
      obtain ⟨kind, children, hfirst⟩ := first.lower_statement []
      have hmem : Growth.node kind children ∈ s.growths := by
        rw [growths, growthsOf, hs, List.mem_reverse, List.foldl_cons, hfirst]
        exact mem_foldl_lower rest List.mem_cons_self
      have hle := Growth.entered_le_enteredAll hmem
      rw [Growth.entered] at hle
      omega
  · intro h
    rw [growths, growthsOf, h]
    rfl

/-- A limit lets the tree of a script through if it is no less than the checked depth. -/
theorem tree?_eq (s : Program) (limit : Nat) :
    s.tree? limit = if s.checkedDepth ≤ limit then some s.tree else none := by
  rw [tree?, SyntaxTree.grow?_eq, tree, checkedDepth]
  have hzero := s.entered_eq_zero_iff
  by_cases hs : s.statements = []
  · rw [if_pos hs, if_pos (Or.inl (hzero.mpr hs)), if_pos (Nat.zero_le _)]
  · rw [if_neg hs]
    have hne : Growth.enteredAll s.growths ≠ 0 := fun h => hs (hzero.mp h)
    by_cases h : Growth.enteredAll s.growths + 1 ≤ limit
    · rw [if_pos (Or.inr h), if_pos h]
    · rw [if_neg (not_or.mpr ⟨hne, h⟩), if_neg h]

/-- The part that is compared reaches the last level of the tree or the one above it. -/
theorem depth_tree (s : Program) :
    s.checkedDepth ≤ s.tree.depth ∧ s.tree.depth ≤ s.checkedDepth + 1 := by
  rw [tree, SyntaxTree.depth_grow, checkedDepth]
  by_cases hs : s.statements = []
  · have hnil : s.growths = [] := by
      rw [growths, growthsOf, hs]
      rfl
    rw [if_pos hs, hnil, Growth.heightAll]
    omega
  · have hle := Growth.enteredAll_le_heightAll s.growths
    have hge := Growth.heightAll_le_enteredAll s.growths
    rw [if_neg hs]
    omega

end Program

end ScriptFeatures.Script
