import ScriptFeatures.Proofs.Syntactic.DepthLimit

/-! Limits only filter. The three limits act before the parser, and on the tree after it, and none
of them reaches into the tree: a parse either has the outcome that the text has by itself, or it is
refused for a limit (`parse_cases`). Of two limits, what the smaller one lets through the greater
one lets through unchanged, as long as the sum that limits the depth of the tree is greater as well.
Limits that add up to `2 ^ 64` or more can have a smaller sum (`parse_of_within_overflow`). -/

namespace ScriptFeatures.Syntactic

open Script (ScriptError)
open ScriptFeatures.Tree (SyntaxTree)

/-- No limit of `l` is greater than that of `m`; the number of parsers is left out. -/
structure Limits.Within (l m : Limits) : Prop where
  bytes : l.bytes ≤ m.bytes
  nesting : l.nesting ≤ m.nesting
  expression : l.expression ≤ m.expression

namespace Limits

variable {l m : Limits}

theorem treeDepth_of_lt (h : l.nesting + l.expression < UInt64.size) :
    l.treeDepth = l.nesting + l.expression :=
  Nat.mod_eq_of_lt h

theorem Within.treeDepth (h : l.Within m) (hm : m.nesting + m.expression < UInt64.size) :
    l.treeDepth ≤ m.treeDepth := by
  have hle := Nat.add_le_add h.nesting h.expression
  rw [treeDepth_of_lt hm, treeDepth_of_lt (Nat.lt_of_le_of_lt hle hm)]
  exact hle

theorem Within.admits (h : l.Within m) (hparsers : m.parsers ≠ 0) {source : String}
    (hl : l.Admits source) : m.Admits source where
  bytes := Nat.le_trans hl.bytes h.bytes
  nesting := Nat.le_trans hl.nesting h.nesting
  expression := Nat.le_trans hl.expression h.expression
  parsers := hparsers

end Limits

/-- An error that is about a limit and says nothing about the script. -/
def ParseError.IsRefusal : ParseError → Prop
  | .invalid _ => False
  | .tooLarge _ _ | .tooDeep _ _ | .saturated => True

/-! ## Outcomes -/

/-- What a text that fails a check before the parser is refused for. -/
theorem refusal_cases {l : Limits} {source : String} (h : ¬l.Admits source) :
    parse l source = .error (.tooLarge source.utf8ByteSize l.bytes) ∨
    (l.nesting < (Nesting.estimate source).descent ∧
      parse l source = .error (.tooDeep (Nesting.estimate source).descent l.nesting)) ∨
    (l.expression < (Nesting.estimate source).depth ∧
      parse l source = .error (.tooDeep (Nesting.estimate source).depth l.expression)) ∨
    parse l source = .error .saturated := by
  rw [parse]
  by_cases hbytes : source.utf8ByteSize > l.bytes
  · exact .inl (if_pos hbytes)
  rw [if_neg hbytes]
  by_cases hnesting : (Nesting.estimate source).descent > l.nesting
  · exact .inr (.inl ⟨hnesting, if_pos hnesting⟩)
  simp only [if_neg hnesting]
  by_cases hexpression : (Nesting.estimate source).depth > l.expression
  · exact .inr (.inr (.inl ⟨hexpression, if_pos hexpression⟩))
  rw [if_neg hexpression]
  by_cases hparsers : l.parsers = 0
  · exact .inr (.inr (.inr (if_pos hparsers)))
  exact absurd ⟨Nat.not_lt.mp hbytes, Nat.not_lt.mp hnesting, Nat.not_lt.mp hexpression, hparsers⟩ h

/-- A text that fails a check before the parser is refused. -/
theorem parse_of_not_admits {l : Limits} {source : String} (h : ¬l.Admits source) :
    ∃ e, e.IsRefusal ∧ parse l source = .error e := by
  obtain hparse | ⟨-, hparse⟩ | ⟨-, hparse⟩ | hparse := refusal_cases h
  · exact ⟨.tooLarge _ _, trivial, hparse⟩
  · exact ⟨.tooDeep _ _, trivial, hparse⟩
  · exact ⟨.tooDeep _ _, trivial, hparse⟩
  · exact ⟨.saturated, trivial, hparse⟩

theorem parse_of_scriptOf_error {l : Limits} {source : String} (h : l.Admits source)
    {e : ScriptError} (hscript : scriptOf source = .error e) :
    parse l source = .error (.invalid e) := by
  have hbytes := Nat.not_lt.mpr h.bytes
  have hnesting := Nat.not_lt.mpr h.nesting
  have hexpression := Nat.not_lt.mpr h.expression
  rw [parse, if_neg hbytes]
  simp only [if_neg hnesting, if_neg hexpression, if_neg h.parsers, hscript]

/-- The four outcomes of a parse: refused before the parser, no script, refused for the depth of
the tree, or the tree. -/
theorem parse_cases (l : Limits) (source : String) :
    (¬l.Admits source ∧ ∃ e, e.IsRefusal ∧ parse l source = .error e) ∨
    (l.Admits source ∧ ∃ e, scriptOf source = .error e ∧ parse l source = .error (.invalid e)) ∨
    (l.Admits source ∧ ∃ script, scriptOf source = .ok script ∧
      l.treeDepth < script.checkedDepth ∧
      parse l source = .error (.tooDeep (l.treeDepth + 1) l.treeDepth)) ∨
    (l.Admits source ∧ ∃ script, scriptOf source = .ok script ∧
      script.checkedDepth ≤ l.treeDepth ∧ parse l source = .ok script.tree) := by
  by_cases hadmits : l.Admits source
  · cases hscript : scriptOf source with
    | error e =>
      exact .inr (.inl ⟨hadmits, e, rfl, parse_of_scriptOf_error hadmits hscript⟩)
    | ok script =>
      have hparse := parse_of_admits hadmits hscript
      by_cases hdepth : script.checkedDepth ≤ l.treeDepth
      · rw [if_pos hdepth] at hparse
        exact .inr (.inr (.inr ⟨hadmits, script, rfl, hdepth, hparse⟩))
      · rw [if_neg hdepth] at hparse
        exact .inr (.inr (.inl ⟨hadmits, script, rfl, Nat.not_le.mp hdepth, hparse⟩))
  · exact .inl ⟨hadmits, parse_of_not_admits hadmits⟩

/-- A tree that is returned is the whole tree of the script. -/
theorem parse_eq_ok_iff {l : Limits} {source : String} {tree : SyntaxTree} :
    parse l source = .ok tree ↔
      l.Admits source ∧ ∃ script, scriptOf source = .ok script ∧
        script.checkedDepth ≤ l.treeDepth ∧ script.tree = tree := by
  constructor
  · intro hparse
    obtain ⟨-, e, -, h⟩ | ⟨-, e, -, h⟩ | ⟨-, script, -, -, h⟩ |
      ⟨hadmits, script, hscript, hdepth, h⟩ := parse_cases l source
    · rw [hparse] at h
      exact nomatch h
    · rw [hparse] at h
      exact nomatch h
    · rw [hparse] at h
      exact nomatch h
    · rw [hparse] at h
      cases h
      exact ⟨hadmits, script, hscript, hdepth, rfl⟩
  · rintro ⟨hadmits, script, hscript, hdepth, rfl⟩
    rw [parse_of_admits hadmits hscript, if_pos hdepth]

/-! ## Two limits -/

section

variable {l m : Limits} {source : String}

/-- Of a script that the smaller limits let through, the greater ones look at the depth only. -/
theorem parse_of_parse_ok (h : l.Within m) (hparsers : m.parsers ≠ 0) {tree : SyntaxTree}
    (hparse : parse l source = .ok tree) :
    ∃ script, scriptOf source = .ok script ∧ script.tree = tree ∧
      script.checkedDepth ≤ l.treeDepth ∧
      parse m source = if script.checkedDepth ≤ m.treeDepth then .ok tree
        else .error (.tooDeep (m.treeDepth + 1) m.treeDepth) := by
  obtain ⟨hadmits, script, hscript, hdepth, rfl⟩ := parse_eq_ok_iff.mp hparse
  exact ⟨script, hscript, rfl, hdepth, parse_of_admits (h.admits hparsers hadmits) hscript⟩

theorem parse_of_parse_invalid (h : l.Within m) (hparsers : m.parsers ≠ 0) {e : ScriptError}
    (hparse : parse l source = .error (.invalid e)) : parse m source = .error (.invalid e) := by
  obtain ⟨-, e', hrefusal, h'⟩ | ⟨hadmits, e', hscript, h'⟩ | ⟨-, script, -, -, h'⟩ |
    ⟨-, script, -, -, h'⟩ := parse_cases l source
  · cases hparse.symm.trans h'
    exact hrefusal.elim
  · cases hparse.symm.trans h'
    exact parse_of_scriptOf_error (h.admits hparsers hadmits) hscript
  · exact nomatch hparse.symm.trans h'
  · exact nomatch hparse.symm.trans h'

/-- A parse that greater limits change was refused for a limit before. -/
theorem refused_of_parse_ne (h : l.Within m) (hparsers : m.parsers ≠ 0)
    (hm : m.nesting + m.expression < UInt64.size) (hne : parse l source ≠ parse m source) :
    ∃ e, e.IsRefusal ∧ parse l source = .error e := by
  obtain ⟨-, hrefused⟩ | ⟨-, e, -, hparse⟩ | ⟨-, script, -, -, hparse⟩ |
    ⟨-, script, -, -, hparse⟩ := parse_cases l source
  · exact hrefused
  · exact absurd (hparse.trans (parse_of_parse_invalid h hparsers hparse).symm) hne
  · exact ⟨.tooDeep _ _, trivial, hparse⟩
  · obtain ⟨_, -, -, hdepth, hmore⟩ := parse_of_parse_ok h hparsers hparse
    rw [if_pos (Nat.le_trans hdepth (h.treeDepth hm))] at hmore
    exact absurd (hparse.trans hmore.symm) hne

end

/-- Greater limits leave every syntax error as it is, and of a tree they look at the depth only:
they refuse it if its script goes deeper than the sum of the two limits modulo `2 ^ 64`. If the
limits add up to less, every tree stays as it is as well, and what changes was refused for a limit
before. -/
theorem parse_of_within {l m : Limits} (h : l.Within m) (hparsers : m.parsers ≠ 0)
    (source : String) :
    (∀ tree, parse l source = .ok tree →
      ∃ script, scriptOf source = .ok script ∧ script.tree = tree ∧
        parse m source =
          if script.checkedDepth ≤ (m.nesting + m.expression) % UInt64.size then .ok tree
          else .error (.tooDeep ((m.nesting + m.expression) % UInt64.size + 1)
            ((m.nesting + m.expression) % UInt64.size))) ∧
    (∀ e, parse l source = .error (.invalid e) → parse m source = .error (.invalid e)) ∧
    (m.nesting + m.expression < UInt64.size →
      (∀ tree, parse l source = .ok tree → parse m source = .ok tree) ∧
      (parse l source ≠ parse m source → ∃ e, e.IsRefusal ∧ parse l source = .error e)) := by
  refine ⟨fun tree hparse => ?_, fun e => parse_of_parse_invalid h hparsers,
    fun hm => ⟨fun tree hparse => ?_, refused_of_parse_ne h hparsers hm⟩⟩
  · obtain ⟨script, hscript, htree, -, hmore⟩ := parse_of_parse_ok h hparsers hparse
    exact ⟨script, hscript, htree, hmore⟩
  · obtain ⟨script, -, -, hdepth, hmore⟩ := parse_of_parse_ok h hparsers hparse
    rw [hmore, if_pos (Nat.le_trans hdepth (h.treeDepth hm))]

/-- A class whose tree has a leaf below the limit: the tree is returned under the smallest limits
that let it through and under greater ones, and refused under smaller ones. -/
theorem parse_of_within_class :
    Limits.Within ⟨8, 2, 2, 1⟩ ⟨100, 10, 2, 7⟩ ∧ Limits.Within ⟨8, 2, 1, 1⟩ ⟨8, 2, 2, 1⟩ ∧
    ∃ script, scriptOf "!class\x7b\x7d" = .ok script ∧
      parse ⟨100, 10, 2, 7⟩ "!class\x7b\x7d" = .ok script.tree ∧
      ∃ e, e.IsRefusal ∧ parse ⟨8, 2, 1, 1⟩ "!class\x7b\x7d" = .error e := by
  have hgreater : Limits.Within ⟨8, 2, 2, 1⟩ ⟨100, 10, 2, 7⟩ := by constructor <;> decide
  have hsmaller : Limits.Within ⟨8, 2, 1, 1⟩ ⟨8, 2, 2, 1⟩ := by constructor <;> decide
  obtain ⟨script, hscript, hdepths⟩ := scriptOf_class
  have hchecked := beq_iff_eq.mp (Bool.and_eq_true_iff.mp hdepths).1
  have htree : parse ⟨8, 2, 2, 1⟩ "!class\x7b\x7d" = .ok script.tree :=
    parse_eq_ok_iff.mpr ⟨admits_class, script, hscript, Nat.le_of_eq hchecked, rfl⟩
  obtain ⟨-, -, hfits⟩ := parse_of_within hgreater (by decide) "!class\x7b\x7d"
  refine ⟨hgreater, hsmaller, script, hscript, (hfits (by decide)).1 _ htree, ?_⟩
  refine ((parse_of_within hsmaller (by decide) _).2.2 (by decide)).2 fun hsame => ?_
  rw [htree] at hsame
  obtain ⟨-, script', hscript', hdepth, -⟩ := parse_eq_ok_iff.mp hsame
  cases hscript.symm.trans hscript'
  rw [hchecked] at hdepth
  exact absurd hdepth (by decide)

/-- The second limits are the greater ones, but they add up to 1, which is too little for the tree
of five levels that the first ones allow. -/
theorem parse_of_within_overflow :
    Limits.Within ⟨100, 10, 10, 1⟩ ⟨100, UInt64.size - 9, 10, 1⟩ ∧
    (∃ tree, parse ⟨100, 10, 10, 1⟩ "f(g(x))" = .ok tree ∧ tree.depth = 5) ∧
    parse ⟨100, UInt64.size - 9, 10, 1⟩ "f(g(x))" = .error (.tooDeep 2 1) := by
  refine ⟨by constructor <;> decide, ?_, by decide +kernel⟩
  have htest : (parse ⟨100, 10, 10, 1⟩ "f(g(x))").toOption.any (fun tree =>
      decide (tree.depth = 5)) = true := by
    decide +kernel
  obtain ⟨tree, hparse, hdepth⟩ := exists_of_any htest
  exact ⟨tree, hparse, of_decide_eq_true hdepth⟩

end ScriptFeatures.Syntactic
