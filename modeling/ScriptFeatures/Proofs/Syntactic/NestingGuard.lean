import ScriptFeatures.Proofs.Nesting.ElseChain
import ScriptFeatures.Proofs.Syntactic.DepthLimit

/-! What the estimate says about the depth of a tree. It closes every open statement head at a
semicolon, also the heads of the conditionals whose `else` follows, so chains of conditionals pass
the checks before the parser with an estimate of 3 and get trees of any depth. No bound on the depth
of a tree can be read off the estimate; what bounds it is the limit on the tree itself. -/

namespace ScriptFeatures.Syntactic

open Script (elseText elseScript)
open ScriptFeatures.Tree (SyntaxTree)

/-- The source text of a chain of `n` conditionals. -/
def elseSource (n : Nat) : String :=
  String.ofList (elseText n)

theorem utf8ByteSize_elseSource (n : Nat) : (elseSource n).utf8ByteSize = 11 * n + 1 := by
  rw [← Text.length_toUTF8, elseSource, Nesting.toUTF8_elseText, Nesting.length_elseBytes]

theorem scriptOf_elseSource (n : Nat) :
    scriptOf (elseSource (n + 1)) = .ok (elseScript (n + 1)) := by
  rw [scriptOf, elseSource, String.toList_ofList, Script.Parser.parse_elseText]
  have hcheck : (elseScript (n + 1)).check.mapError Script.ScriptError.early = .ok () := by
    rw [Script.check_elseScript]
    rfl
  simp only [bind, Except.bind, hcheck]
  rfl

/-- What the checks before the parser ask of a chain does not depend on its length, but for its
size. -/
theorem admits_elseSource {limits : Limits} (n : Nat) (hbytes : 11 * (n + 2) + 1 ≤ limits.bytes)
    (hnesting : 3 ≤ limits.nesting) (hexpression : 3 ≤ limits.expression)
    (hparsers : limits.parsers ≠ 0) : limits.Admits (elseSource (n + 2)) where
  bytes := by
    rw [utf8ByteSize_elseSource]
    exact hbytes
  nesting := by
    rw [elseSource, Nesting.estimate_elseText]
    exact hnesting
  expression := by
    rw [elseSource, Nesting.estimate_elseText]
    exact hexpression
  parsers := hparsers

theorem parse_elseSource {limits : Limits} (n : Nat) (h : limits.Admits (elseSource (n + 2)))
    (hdepth : n + 4 ≤ limits.treeDepth) :
    parse limits (elseSource (n + 2)) = .ok (elseScript (n + 2)).tree := by
  obtain ⟨-, hchecked⟩ := Script.depth_elseScript (n + 2)
  rw [parse_of_admits h (scriptOf_elseSource (n + 1)), hchecked, if_pos hdepth]

/-- A chain of at least two conditionals has a tree that is deeper by one level for each of them and
an estimate that stays at 3, so a bound that grows with the estimate holds of short chains only. -/
theorem elseSource_depth_le_iff {limits : Limits} (n : Nat)
    (h : limits.Admits (elseSource (n + 2))) (hdepth : n + 4 ≤ limits.treeDepth) :
    ∃ tree, parse limits (elseSource (n + 2)) = .ok tree ∧ tree.depth = n + 4 ∧
      Nesting.estimate (elseSource (n + 2)) = ⟨3, 3⟩ ∧
      ∀ factor, tree.depth ≤ factor * ((Nesting.estimate (elseSource (n + 2))).depth + 1) ↔
        n + 4 ≤ 4 * factor := by
  obtain ⟨htree, -⟩ := Script.depth_elseScript (n + 2)
  have hestimate : Nesting.estimate (elseSource (n + 2)) = ⟨3, 3⟩ := Nesting.estimate_elseText n
  refine ⟨_, parse_elseSource n h hdepth, htree, hestimate, fun factor => ?_⟩
  rw [htree, hestimate, Nat.mul_comm factor]

theorem elseSource_depth_le_iff_long :
    ∃ tree, parse ⟨342, 30, 3, 1⟩ (elseSource 31) = .ok tree ∧ tree.depth = 33 ∧
      Nesting.estimate (elseSource 31) = ⟨3, 3⟩ ∧
      ∀ factor, tree.depth ≤ factor * ((Nesting.estimate (elseSource 31)).depth + 1) ↔
        33 ≤ 4 * factor :=
  elseSource_depth_le_iff 29
    (admits_elseSource 29 (by decide) (by decide) (by decide) (by decide)) (by decide)

/-- Eight levels for each level of the estimate are not enough. -/
theorem depth_not_le_estimate :
    ¬∀ (limits : Limits) (source : String) (tree : SyntaxTree),
      parse limits source = .ok tree →
        tree.depth ≤ 8 * ((Nesting.estimate source).depth + 1) := by
  intro hall
  have hadmits : Limits.Admits ⟨342, 30, 3, 1⟩ (elseSource 31) :=
    admits_elseSource 29 (by decide) (by decide) (by decide) (by decide)
  have hle := hall _ _ _ (parse_elseSource 29 hadmits (by decide))
  have hestimate : Nesting.estimate (elseSource 31) = ⟨3, 3⟩ := Nesting.estimate_elseText 29
  rw [(Script.depth_elseScript 31).1, hestimate] at hle
  exact absurd hle (by decide)

/-- No function of the estimate bounds the depth of the trees that are returned, as far as a limit
on the depth can allow for trees at all. -/
theorem exists_depth_gt (bound : Nat → Nat) (h : bound 3 + 6 < UInt64.size) :
    ∃ (limits : Limits) (source : String) (tree : SyntaxTree), parse limits source = .ok tree ∧
      bound (Nesting.estimate source).depth < tree.depth := by
  have hadmits : Limits.Admits ⟨11 * (bound 3 + 2) + 1, bound 3 + 3, 3, 1⟩
      (elseSource (bound 3 + 2)) :=
    admits_elseSource (bound 3) (Nat.le_refl _) (Nat.le_add_left _ _) (Nat.le_refl _)
      Nat.one_ne_zero
  have hestimate : Nesting.estimate (elseSource (bound 3 + 2)) = ⟨3, 3⟩ :=
    Nesting.estimate_elseText (bound 3)
  have hroom : bound 3 + 4 ≤ (bound 3 + 3 + 3) % UInt64.size := by
    rw [Nat.mod_eq_of_lt h]
    omega
  refine ⟨_, _, _, parse_elseSource (bound 3) hadmits hroom, ?_⟩
  rw [(Script.depth_elseScript (bound 3 + 2)).1, hestimate]
  exact Nat.lt_add_of_pos_right (Nat.succ_pos 3)

end ScriptFeatures.Syntactic
