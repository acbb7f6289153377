import Mathlib.Data.List.TakeWhile
import ScriptFeatures.Proofs.Nesting.Position

/-! White space and comments, one piece after the other. A scan passes over all of them at once;
`Gaps` is the same as a relation, with every point between two pieces in it. The two agree:
what a run of pieces leaves is scanned as the whole is (`Gaps.skipGap_eq`), and what stands before a
token is such a run (`gaps_of_skipGap`). -/

namespace ScriptFeatures.Nesting

/-- Whether a byte is white space, which is passed over one byte at a time. -/
def isBlankByte (b : UInt8) : Bool :=
  isBreakByte b || b == 0x20 || b == 0x09 || b == 0x0B || b == 0x0C

/-- The end of a block comment. -/
def endMark : List UInt8 := [0x2A, 0x2F]

/-- From a text with or without a line break before it, a run of blanks and comments leads to what
follows them, with or without a line break before that. A line comment ends before its line
break. -/
inductive Gaps : Bool → List UInt8 → Bool → List UInt8 → Prop
  | refl (newline : Bool) (text : List UInt8) : Gaps newline text newline text
  | blank {newline newline' : Bool} {b : UInt8} {text rest : List UInt8}
      (hb : isBlankByte b = true)
      (others : Gaps (newline || isBreakByte b) text newline' rest) :
      Gaps newline (b :: text) newline' rest
  | line {newline newline' : Bool} {comment text rest : List UInt8}
      (hcomment : ∀ b ∈ comment, isBreakByte b = false)
      (hend : ∀ b ∈ text.head?, isBreakByte b = true)
      (others : Gaps newline text newline' rest) :
      Gaps newline (0x2F :: 0x2F :: (comment ++ text)) newline' rest
  | block {newline newline' : Bool} {comment text rest : List UInt8}
      (hcomment : ¬endMark <:+: comment)
      (others : Gaps (newline || comment.any isBreakByte) text newline' rest) :
      Gaps newline (0x2F :: 0x2A :: (comment ++ (endMark ++ text))) newline' rest

/-! ## A run of pieces is passed over -/

theorem skipGap_blank {b : UInt8} (hb : isBlankByte b = true) (newline : Bool)
    (text : List UInt8) :
    skipGap .between newline (b :: text) = skipGap .between (newline || isBreakByte b) text := by
  have hslash : (b == 0x2F) = false := by
    refine beq_false_of_ne ?_
    rintro rfl
    exact absurd hb (by decide)
  rw [skipGap_between_cons, hslash, Bool.false_and, Bool.false_and, if_neg Bool.false_ne_true,
    if_neg Bool.false_ne_true]
  cases hbreak : isBreakByte b with
  | true => rw [if_pos rfl, Bool.or_true]
  | false =>
    rw [isBlankByte, hbreak, Bool.false_or] at hb
    rw [if_neg Bool.false_ne_true, if_pos hb, Bool.or_false]

/-- A line comment goes on to the next line break, which is left. -/
theorem skipGap_line (newline : Bool) {comment text : List UInt8}
    (hcomment : ∀ b ∈ comment, isBreakByte b = false)
    (hend : ∀ b ∈ text.head?, isBreakByte b = true) :
    skipGap .line newline (comment ++ text) = skipGap .between newline text := by
  induction comment with
  | nil =>
    cases text with
    | nil => rfl
    | cons b rest =>
      have hb : isBreakByte b = true := hend b rfl
      have hblank : isBlankByte b = true := by simp [isBlankByte, hb]
      rw [List.nil_append, skipGap_blank hblank, hb, Bool.or_true, skipGap, if_pos hb]
  | cons b comment ih =>
    rw [List.forall_mem_cons] at hcomment
    rw [List.cons_append, skipGap, hcomment.1, if_neg Bool.false_ne_true]
    exact ih hcomment.2

/-- The first byte of an end mark does not make one with the last byte of a comment. -/
theorem isPrefixOf_endMark {b : UInt8} {comment : List UInt8} (text : List UInt8)
    (h : ¬endMark <:+: b :: comment) :
    endMark.isPrefixOf (b :: (comment ++ (endMark ++ text))) = false := by
  cases comment with
  | nil =>
    show ((0x2A : UInt8) == b && false) = false
    exact Bool.and_false _
  | cons c comment =>
    rw [Bool.eq_false_iff]
    intro hend
    have hbegins : endMark.isPrefixOf (b :: c :: comment) = true := hend
    exact h (List.isPrefixOf_iff_prefix.mp hbegins).isInfix

/-- A block comment goes on to the first end mark. -/
theorem skipGap_block (newline : Bool) {comment : List UInt8} (text : List UInt8)
    (hcomment : ¬endMark <:+: comment) :
    skipGap .block newline (comment ++ (endMark ++ text)) =
      skipGap .between (newline || comment.any isBreakByte) text := by
  induction comment generalizing newline with
  | nil =>
    rw [List.any_nil, Bool.or_false]
    rfl
  | cons b comment ih =>
    have hopen := isPrefixOf_endMark text hcomment
    rw [endMark] at hopen
    rw [List.cons_append, skipGap_block_cons, endMark, hopen, if_neg Bool.false_ne_true, ← endMark,
      ih _ fun h => hcomment (h.trans (List.suffix_cons b comment).isInfix), List.any_cons,
      Bool.or_assoc]

namespace Gaps

variable {newline newline' : Bool} {text rest : List UInt8}

theorem skipGap_eq (h : Gaps newline text newline' rest) :
    skipGap .between newline text = skipGap .between newline' rest := by
  induction h with
  | refl => rfl
  | blank hb _ ih => rw [skipGap_blank hb, ih]
  | line hcomment hend _ ih =>
    rw [← ih]
    exact skipGap_line _ hcomment hend
  | block hcomment _ ih =>
    rw [← ih]
    exact skipGap_block _ _ hcomment

theorem trans {newline'' : Bool} {left : List UInt8} (first : Gaps newline text newline' rest)
    (others : Gaps newline' rest newline'' left) : Gaps newline text newline'' left := by
  induction first with
  | refl => exact others
  | blank hb _ ih => exact .blank hb (ih others)
  | line hcomment hend _ ih => exact .line hcomment hend (ih others)
  | block hcomment _ ih => exact .block hcomment (ih others)

theorem suffix (h : Gaps newline text newline' rest) : rest <:+ text := by
  induction h with
  | refl => exact List.suffix_rfl
  | @blank _ _ b _ _ _ _ ih => exact ih.trans (List.suffix_cons b _)
  | @line _ _ comment _ _ _ _ _ ih => exact ih.trans ⟨0x2F :: 0x2F :: comment, rfl⟩
  | @block _ _ comment _ _ _ _ ih =>
    refine ih.trans ⟨0x2F :: 0x2A :: (comment ++ endMark), ?_⟩
    rw [List.cons_append, List.cons_append, List.append_assoc]

end Gaps

/-! ## What is passed over is a run of pieces -/

/-- A block comment ends at an end mark or leaves nothing. -/
theorem exists_endMark_or_nil (text : List UInt8) :
    (∃ comment rest, text = comment ++ (endMark ++ rest) ∧ ¬endMark <:+: comment) ∨
    ∀ newline, (skipGap .block newline text).2 = [] := by
  induction text with
  | nil => exact .inr fun _ => rfl
  | cons b text ih =>
    by_cases hend : endMark.isPrefixOf (b :: text) = true
    · obtain ⟨rest, hrest⟩ := List.isPrefixOf_iff_prefix.mp hend
      exact .inl ⟨[], rest, hrest.symm, by decide⟩
    · obtain ⟨comment, rest, rfl, hcomment⟩ | hnil := ih
      · refine .inl ⟨b :: comment, rest, rfl, ?_⟩
        rw [List.infix_cons_iff, not_or]
        refine ⟨fun hbegins => hend (List.isPrefixOf_iff_prefix.mpr (hbegins.trans ?_)), hcomment⟩
        exact ⟨endMark ++ rest, rfl⟩
      · refine .inr fun newline => ?_
        rw [endMark] at hend
        rw [skipGap_block_cons, if_neg hend]
        exact hnil _

/-- What stands before the end of a line is a line comment. -/
theorem gaps_line (newline : Bool) (text : List UInt8) :
    Gaps newline (0x2F :: 0x2F :: text) newline (text.dropWhile (!isBreakByte ·)) := by
  have hcomment : ∀ b ∈ text.takeWhile (!isBreakByte ·), isBreakByte b = false :=
    fun b hb => by simpa using List.mem_takeWhile_imp hb
  have hend : ∀ b ∈ (text.dropWhile (!isBreakByte ·)).head?, isBreakByte b = true := by
    intro b hb
    have hnot := List.head?_dropWhile_not (!isBreakByte ·) text
    rw [hb] at hnot
    simpa using hnot
  have hpiece := Gaps.line hcomment hend (.refl newline (text.dropWhile (!isBreakByte ·)))
  rwa [List.takeWhile_append_dropWhile] at hpiece

/-- A text begins with one of the pieces, or with a token, or with a comment that has no end. -/
theorem exists_piece (newline : Bool) (b : UInt8) (text : List UInt8) :
    (∃ newline' left, Gaps newline (b :: text) newline' left ∧ left.length ≤ text.length) ∨
    skipGap .between newline (b :: text) = (newline, b :: text) ∨
    (skipGap .between newline (b :: text)).2 = [] := by
  by_cases hblank : isBlankByte b = true
  · exact .inl ⟨_, text, .blank hblank (.refl _ _), Nat.le_refl _⟩
  by_cases hline : (b == 0x2F && text.head? == some 0x2F) = true
  · obtain ⟨hb, hnext⟩ := Bool.and_eq_true_iff.mp hline
    obtain ⟨text, rfl⟩ := List.head?_eq_some_iff.mp (beq_iff_eq.mp hnext)
    obtain rfl := beq_iff_eq.mp hb
    have hlength := (List.dropWhile_suffix (l := text) (!isBreakByte ·)).length_le
    exact .inl ⟨newline, _, gaps_line newline text, Nat.le_succ_of_le hlength⟩
  by_cases hblock : (b == 0x2F && text.head? == some 0x2A) = true
  · obtain ⟨hb, hnext⟩ := Bool.and_eq_true_iff.mp hblock
    obtain ⟨text, rfl⟩ := List.head?_eq_some_iff.mp (beq_iff_eq.mp hnext)
    obtain rfl := beq_iff_eq.mp hb
    obtain ⟨comment, after, rfl, hcomment⟩ | hnil := exists_endMark_or_nil text
    · refine .inl ⟨_, after, .block hcomment (.refl _ _), ?_⟩
      simp only [List.length_cons, List.length_append]
      omega
    · exact .inr (.inr (hnil newline))
  refine .inr (.inl ?_)
  simp only [isBlankByte, Bool.or_eq_true, not_or, Bool.not_eq_true] at hblank
  obtain ⟨⟨⟨⟨hbreak, hspace⟩, htab⟩, hvertical⟩, hform⟩ := hblank
  rw [skipGap_between_cons, if_neg hline, if_neg hblock, hbreak, hspace, htab, hvertical, hform]
  rfl

theorem gaps_of_skipGap {newline newline' : Bool} {text rest : List UInt8}
    (h : skipGap .between newline text = (newline', rest)) (hne : rest ≠ []) :
    Gaps newline text newline' rest := by
  induction hn : text.length using Nat.strong_induction_on generalizing newline text with
  | h n ih =>
    cases text with
    | nil =>
      cases h
      exact absurd rfl hne
    | cons b text =>
      obtain ⟨between, left, hpiece, hlength⟩ | hstop | hnil := exists_piece newline b text
      · rw [hpiece.skipGap_eq] at h
        have hlt : left.length < n := by
          rw [← hn, List.length_cons]
          exact Nat.lt_succ_of_le hlength
        exact hpiece.trans (ih left.length hlt h rfl)
      · rw [hstop] at h
        cases h
        exact .refl _ _
      · rw [h] at hnil
        exact absurd hnil hne

end ScriptFeatures.Nesting
