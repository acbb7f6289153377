import ScriptFeatures.Proofs.Script.Visit
import ScriptFeatures.Syntactic.Columns

/-! Scripts one after the other. No statement leaves a trace on the next one, so the tree of two
lists of statements has the branches of the two trees side by side, and the counts of both but for
the second root. -/

namespace ScriptFeatures.Script

open ScriptFeatures.Tree
open Syntactic (countIn)

theorem Phrase.lower_statement_append (s : Statement) (before : List Growth) :
    s.lower before = s.lower [] ++ before := by
  cases s <;> rfl

theorem foldl_lower_append (statements : List Statement) (before : List Growth) :
    statements.foldl (fun before s => s.lower before) before =
      statements.foldl (fun before s => s.lower before) [] ++ before := by
  induction statements generalizing before with
  | nil => rfl
  | cons s rest ih =>
    rw [List.foldl_cons, List.foldl_cons, ih, ih (s.lower []), s.lower_statement_append before,
      List.append_assoc]

theorem growthsOf_append (first second : List Statement) :
    growthsOf (first ++ second) = growthsOf first ++ growthsOf second := by
  rw [growthsOf, List.foldl_append, foldl_lower_append, List.reverse_append, growthsOf, growthsOf]

end ScriptFeatures.Script

namespace ScriptFeatures.Tree

theorem Growth.enteredAll_append (gs hs : List Growth) :
    enteredAll (gs ++ hs) = max (enteredAll gs) (enteredAll hs) := by
  induction gs with
  | nil => rw [List.nil_append, enteredAll, Nat.zero_max]
  | cons g rest ih => rw [List.cons_append, enteredAll, ih, enteredAll, Nat.max_assoc]

namespace SyntaxTree

variable {root : NodeKind} {limit : Nat} {gs hs : List Growth}

/-- A limit lets growths through side by side if it lets through those on both sides. -/
theorem grow?_append_eq_none_iff :
    grow? root limit (gs ++ hs) = none ↔
      grow? root limit gs = none ∨ grow? root limit hs = none := by
  rw [grow?_eq, grow?_eq, grow?_eq, Growth.enteredAll_append]
  simp only [ite_eq_right_iff, reduceCtorEq, imp_false]
  omega

theorem eq_grow_of_grow?_eq_some {t : SyntaxTree} (h : grow? root limit gs = some t) :
    t = grow root gs := by
  rw [grow?_eq] at h
  split at h
  · exact (Option.some.inj h).symm
  · exact nomatch h

theorem branches_grow_append :
    (grow root (gs ++ hs)).branches = (grow root gs).branches ++ (grow root hs).branches := by
  rw [branches_grow, branches_grow, branches_grow, List.map_append]

/-- The nodes of a kind are those of the branches, and the root. -/
theorem count_grow (kind : NodeKind) :
    (grow root gs).kinds.count kind =
      (Branch.kindsAll (grow root gs).branches).count kind + if root = kind then 1 else 0 := by
  rw [(kinds_grow root gs).count_eq, List.count_cons]
  simp only [beq_iff_eq]

theorem count_grow_append (kind : NodeKind) :
    (grow root (gs ++ hs)).kinds.count kind + (if root = kind then 1 else 0) =
      (grow root gs).kinds.count kind + (grow root hs).kinds.count kind := by
  rw [count_grow, count_grow, count_grow, branches_grow_append, Branch.kindsAll_append,
    List.count_append]
  omega

theorem length_kinds_grow :
    (grow root gs).kinds.length = (Branch.kindsAll (grow root gs).branches).length + 1 := by
  rw [(kinds_grow root gs).length_eq, List.length_cons]

/-- The trees of both sides have no more nodes than the tree of the two. -/
theorem length_kinds_grow_append :
    (grow root gs).kinds.length ≤ (grow root (gs ++ hs)).kinds.length ∧
      (grow root hs).kinds.length ≤ (grow root (gs ++ hs)).kinds.length := by
  simp only [length_kinds_grow, branches_grow_append, Branch.kindsAll_append, List.length_append]
  omega

theorem countIn_counts (t : SyntaxTree) (kind : NodeKind) :
    Syntactic.countIn kind t.counts = t.kinds.count kind % UInt32.size :=
  t.lookup_counts kind

end SyntaxTree

end ScriptFeatures.Tree

namespace ScriptFeatures.Script

open ScriptFeatures.Tree
open Syntactic (countIn)

/-- Node counts add up over statements. Planting and visiting leave the path as it was, so a script
has a tree within a limit if the two halves of its statements have one, and then its branches are
those of the two trees side by side and its counts are those of both, less one root: modulo
`2 ^ 32`, and exactly if its tree has fewer nodes. -/
theorem tree?_append (limit : Nat) (strict : Bool) (a b : Program) :
    (∀ (g : Growth) (p q : Planter), g.plant limit p = some q → q.path = p.path) ∧
    (∀ (c : Category) (phrase : Phrase c) (p q : Planter),
      phrase.visit limit p = some q → q.path = p.path) ∧
    (∀ s : Program, s.visit limit = s.tree? limit) ∧
    (Program.tree? limit ⟨strict, a.statements ++ b.statements⟩ = none ↔
      a.tree? limit = none ∨ b.tree? limit = none) ∧
    ∀ t u : SyntaxTree, a.tree? limit = some t → b.tree? limit = some u →
      ∃ v, Program.tree? limit ⟨strict, a.statements ++ b.statements⟩ = some v ∧
        v.branches = t.branches ++ u.branches ∧
        (∀ kind : NodeKind,
          (countIn kind v.counts + if .program = kind then 1 else 0) % UInt32.size =
            (countIn kind t.counts + countIn kind u.counts) % UInt32.size) ∧
        (v.size < UInt32.size → ∀ kind : NodeKind,
          countIn kind v.counts + (if .program = kind then 1 else 0) =
            countIn kind t.counts + countIn kind u.counts) := by
  have happend : Program.growths ⟨strict, a.statements ++ b.statements⟩ =
      a.growths ++ b.growths :=
    growthsOf_append a.statements b.statements
  have hnone : SyntaxTree.grow? .program limit (a.growths ++ b.growths) = none ↔
      a.tree? limit = none ∨ b.tree? limit = none :=
    SyntaxTree.grow?_append_eq_none_iff
  refine ⟨?_, fun _ phrase => phrase.keeps_visit limit, Program.visit_eq limit, ?_, ?_⟩
  · intro g p q h
    rw [Growth.plant_eq, Option.ite_none_right_eq_some] at h
    obtain ⟨-, h⟩ := h
    cases h
    exact g.path_sprout p
  · rw [Program.tree?, happend]
    exact hnone
  · intro t u ht hu
    rw [Program.tree?, happend]
    cases hv : SyntaxTree.grow? .program limit (a.growths ++ b.growths) with
    | none =>
      obtain h | h := hnone.mp hv
      · exact (Option.some_ne_none t (ht.symm.trans h)).elim
      · exact (Option.some_ne_none u (hu.symm.trans h)).elim
    | some v =>
      rw [SyntaxTree.eq_grow_of_grow?_eq_some ht, SyntaxTree.eq_grow_of_grow?_eq_some hu,
        SyntaxTree.eq_grow_of_grow?_eq_some hv]
      have hcounts := @SyntaxTree.count_grow_append .program a.growths b.growths
      refine ⟨_, rfl, SyntaxTree.branches_grow_append, fun kind => ?_, fun hsize kind => ?_⟩
      · rw [SyntaxTree.countIn_counts, SyntaxTree.countIn_counts, SyntaxTree.countIn_counts,
          Nat.mod_add_mod, hcounts kind, ← Nat.add_mod]
      · rw [← (SyntaxTree.built_grow _ _).length_kinds] at hsize
        obtain ⟨hfirst, hsecond⟩ :=
          @SyntaxTree.length_kinds_grow_append .program a.growths b.growths
        rw [SyntaxTree.countIn_counts, SyntaxTree.countIn_counts, SyntaxTree.countIn_counts,
          SyntaxTree.count_mod hsize, SyntaxTree.count_mod (Nat.lt_of_le_of_lt hfirst hsize),
          SyntaxTree.count_mod (Nat.lt_of_le_of_lt hsecond hsize)]
        exact hcounts kind

/-- `for (var x in o);` -/
def oneLoop : Program :=
  ⟨false, [.forIn (.headVariable .var (.targetName "x")) (.name "o") .empty]⟩

/-- `"use strict"; class A {}` -/
def oneClass : Program :=
  ⟨true, [.expression (.literal (.string "use strict" .plain)),
    .classDeclaration (.classBody (.written "A") .absent .absent .nil)]⟩

theorem tree?_append_loop_class :
    ∃ t u v, oneLoop.tree? 5 = some t ∧ oneClass.tree? 5 = some u ∧
      Program.tree? 5 ⟨false, oneLoop.statements ++ oneClass.statements⟩ = some v ∧
      v.size < UInt32.size ∧ v.branches = t.branches ++ u.branches ∧
      countIn .identifier v.counts = 3 ∧ countIn .program v.counts = 1 := by
  obtain ⟨-, -, -, -, happend⟩ := tree?_append 5 false oneLoop oneClass
  obtain ⟨v, hv, hbranches, -, hcounts⟩ := happend _ _ rfl rfl
  have hsize : (Program.tree? 5 ⟨false, oneLoop.statements ++ oneClass.statements⟩).any
      (fun v => decide (v.size < UInt32.size)) = true := by
    decide
  rw [hv] at hsize
  have hsize : v.size < UInt32.size := of_decide_eq_true hsize
  have hidentifier := hcounts hsize .identifier
  have hprogram := hcounts hsize .program
  refine ⟨_, _, v, rfl, rfl, hv, hsize, hbranches, hidentifier.trans (by decide), ?_⟩
  exact Nat.succ.inj (hprogram.trans (by decide))

end ScriptFeatures.Script
