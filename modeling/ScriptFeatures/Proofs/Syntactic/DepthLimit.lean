import ScriptFeatures.Proofs.Script.Lowering
import ScriptFeatures.Syntactic.Parse

/-! The limit on the depth of a tree. Lowering holds the nodes that it enters against the limit and
adds leaves without a look at it, so of the texts that pass the checks before the parser

* those whose entered nodes reach below the limit are refused;
* all others get their whole tree, which may have one level more than the limit;
* the answer is the one that a limit on the whole tree would give, unless the entered nodes end
  exactly at the limit and a leaf lies below them. -/

namespace ScriptFeatures.Syntactic

open ScriptFeatures.Tree (SyntaxTree)

/-- A text passes the checks that are made before the parser runs. -/
structure Limits.Admits (l : Limits) (source : String) : Prop where
  bytes : source.utf8ByteSize ≤ l.bytes
  nesting : (Nesting.estimate source).descent ≤ l.nesting
  expression : (Nesting.estimate source).depth ≤ l.expression
  parsers : l.parsers ≠ 0

/-- The answer of a limit that the whole tree is held against. -/
def boundedBy (limit : Nat) (tree : SyntaxTree) : Except ParseError SyntaxTree :=
  if tree.depth ≤ limit then .ok tree else .error (.tooDeep (limit + 1) limit)

section

variable {limits : Limits} {source : String} {script : Script.Program}

/-- After the checks it is the checked depth alone that decides about a script. -/
theorem parse_of_admits (h : limits.Admits source) (hscript : scriptOf source = .ok script) :
    parse limits source =
      if script.checkedDepth ≤ limits.treeDepth then .ok script.tree
      else .error (.tooDeep (limits.treeDepth + 1) limits.treeDepth) := by
  have hbytes := Nat.not_lt.mpr h.bytes
  have hnesting := Nat.not_lt.mpr h.nesting
  have hexpression := Nat.not_lt.mpr h.expression
  rw [parse, if_neg hbytes]
  simp only [if_neg hnesting, if_neg hexpression, if_neg h.parsers, hscript, script.tree?_eq]
  by_cases hdepth : script.checkedDepth ≤ limits.treeDepth
  · simp only [if_pos hdepth]
  · simp only [if_neg hdepth]

/-- A tree that is returned has at most one level more than the limit. -/
theorem depth_le_of_parse (h : limits.Admits source) (hscript : scriptOf source = .ok script)
    {tree : SyntaxTree} (hparse : parse limits source = .ok tree) :
    tree.depth ≤ limits.treeDepth + 1 := by
  rw [parse_of_admits h hscript] at hparse
  by_cases hdepth : script.checkedDepth ≤ limits.treeDepth
  · rw [if_pos hdepth] at hparse
    cases hparse
    have := script.depth_tree.2
    omega
  · rw [if_neg hdepth] at hparse
    exact nomatch hparse

/-- The answer is that of a limit on the whole tree, except for a leaf one level below the limit. -/
theorem parse_eq_boundedBy_iff (h : limits.Admits source)
    (hscript : scriptOf source = .ok script) :
    parse limits source = boundedBy limits.treeDepth script.tree ↔
      ¬(script.checkedDepth = limits.treeDepth ∧ script.tree.depth = limits.treeDepth + 1) := by
  have hdepth := script.depth_tree
  rw [parse_of_admits h hscript, boundedBy]
  by_cases hchecked : script.checkedDepth ≤ limits.treeDepth
  · rw [if_pos hchecked]
    by_cases htree : script.tree.depth ≤ limits.treeDepth
    · rw [if_pos htree]
      exact iff_of_true rfl (by omega)
    · rw [if_neg htree]
      exact iff_of_false (fun h => nomatch h) (by omega)
  · rw [if_neg hchecked, if_neg (by omega)]
    exact iff_of_true rfl (by omega)

/-- What the limit on the depth does to a text that passes the other checks: which scripts it
refuses, how far the nodes it looks at can be from the depth of the tree, how deep a returned tree
can be, and when it is not a limit on the whole tree. -/
theorem parse_depth_limit (h : limits.Admits source) (hscript : scriptOf source = .ok script) :
    (parse limits source =
      if script.checkedDepth ≤ limits.treeDepth then .ok script.tree
      else .error (.tooDeep (limits.treeDepth + 1) limits.treeDepth)) ∧
    (script.tree.depth = script.checkedDepth ∨ script.tree.depth = script.checkedDepth + 1) ∧
    (∀ tree, parse limits source = .ok tree → tree.depth ≤ limits.treeDepth + 1) ∧
    (parse limits source = boundedBy limits.treeDepth script.tree ↔
      ¬(script.checkedDepth = limits.treeDepth ∧ script.tree.depth = limits.treeDepth + 1)) := by
  have hdepth := script.depth_tree
  exact ⟨parse_of_admits h hscript, by omega, fun _ => depth_le_of_parse h hscript,
    parse_eq_boundedBy_iff h hscript⟩

end

/-! ## A leaf below the limit -/

/-- What a test finds about a result holds of a value that it has. -/
theorem exists_of_any {α ε : Type} {x : Except ε α} {test : α → Bool}
    (h : x.toOption.any test = true) : ∃ a, x = .ok a ∧ test a = true := by
  cases x with
  | error e => exact nomatch h
  | ok a => exact ⟨a, rfl, h⟩

theorem admits_class : Limits.Admits ⟨8, 2, 2, 1⟩ "!class\x7b\x7d" :=
  ⟨by decide, by decide +kernel, by decide +kernel, by decide⟩

theorem scriptOf_class : ∃ script, scriptOf "!class\x7b\x7d" = .ok script ∧
    (script.checkedDepth == 4 && script.tree.depth == 5) = true :=
  exists_of_any (by decide +kernel)

/-- The limit is 4 levels. The nodes that are entered keep to it, but the body of the class is a
leaf on the fifth level. -/
theorem parse_depth_limit_class :
    ∃ script, scriptOf "!class\x7b\x7d" = .ok script ∧
      parse ⟨8, 2, 2, 1⟩ "!class\x7b\x7d" = .ok script.tree ∧
      script.checkedDepth = 4 ∧ script.tree.depth = 5 := by
  obtain ⟨script, hscript, hdepths⟩ := scriptOf_class
  obtain ⟨hchecked, htree⟩ := Bool.and_eq_true_iff.mp hdepths
  have hchecked := beq_iff_eq.mp hchecked
  have htree := beq_iff_eq.mp htree
  obtain ⟨hparse, -⟩ := parse_depth_limit admits_class hscript
  have hle : script.checkedDepth ≤ (⟨8, 2, 2, 1⟩ : Limits).treeDepth := Nat.le_of_eq hchecked
  rw [if_pos hle] at hparse
  exact ⟨script, hscript, hparse, hchecked, htree⟩

/-- So the limit is none on the whole tree. -/
theorem parse_ne_boundedBy_class :
    ∃ script, scriptOf "!class\x7b\x7d" = .ok script ∧
      parse ⟨8, 2, 2, 1⟩ "!class\x7b\x7d" ≠ boundedBy 4 script.tree := by
  obtain ⟨script, hscript, hdepths⟩ := scriptOf_class
  obtain ⟨hchecked, htree⟩ := Bool.and_eq_true_iff.mp hdepths
  refine ⟨script, hscript, fun h => ?_⟩
  exact (parse_eq_boundedBy_iff admits_class hscript).mp h
    ⟨beq_iff_eq.mp hchecked, beq_iff_eq.mp htree⟩

end ScriptFeatures.Syntactic
