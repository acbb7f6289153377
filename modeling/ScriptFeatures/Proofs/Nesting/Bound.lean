import Mathlib.Algebra.Order.BigOperators.Group.List
import Mathlib.Algebra.Order.Group.Nat
import ScriptFeatures.Proofs.Nesting.Steps

/-! The estimate is bounded by the length of the text. One byte can open two levels: a parenthesis
behind an operand is a call, which goes on with a chain, and a bracket. But an operand has to come
first, and it opens no level itself. So an expected operator is counted like a level (`Paid`), and
then a token pays with its first byte for all that it opens (`Paid.token`). -/

namespace ScriptFeatures.Nesting

namespace Scan

/-- The number of open levels of all kinds. -/
def level (s : Scan) : Nat :=
  s.frames.height + s.sumDescent + s.sumChained

/-- At most `deep` levels are open, and there have not been more than `most`. -/
structure Bounded (deep most : Nat) (s : Scan) : Prop where
  level : s.level ≤ deep
  descent : s.estimate.descent ≤ s.estimate.depth
  depth : s.estimate.depth ≤ most

/-- The bytes that have been read pay for the open levels, and for one more if an operator is
expected. -/
structure Paid (bytes : Nat) (s : Scan) : Prop where
  bounded : Bounded bytes bytes s
  operator : s.expect = .operator → s.level < bytes

variable {s : Scan} {deep most n : Nat}

/-! ## Levels -/

namespace Bounded

theorem mono (h : Bounded deep most s) {deep' most' : Nat} (hdeep : deep ≤ deep')
    (hmost : most ≤ most') : Bounded deep' most' s :=
  ⟨Nat.le_trans h.level hdeep, h.descent, Nat.le_trans h.depth hmost⟩

theorem record (h : Bounded deep most s) (hdeep : deep ≤ most) : Bounded deep most s.record where
  level := h.level
  descent := by
    have := h.descent
    show max s.estimate.descent (s.frames.height + s.sumDescent) ≤
      max s.estimate.depth (s.frames.height + s.sumDescent + s.sumChained)
    omega
  depth := Nat.max_le.mpr ⟨h.depth, Nat.le_trans h.level hdeep⟩

theorem expecting (h : Bounded deep most s) (e : Expect) : Bounded deep most (s.expecting e) :=
  ⟨h.level, h.descent, h.depth⟩

theorem closeUnary (h : Bounded deep most s) : Bounded deep most s.closeUnary := by
  refine ⟨Nat.le_trans ?_ h.level, h.descent, h.depth⟩
  show s.frames.height + (s.sumDescent - s.frames.top.unary) + s.sumChained ≤
    s.frames.height + s.sumDescent + s.sumChained
  omega

theorem closeElement (h : Bounded deep most s) : Bounded deep most s.closeElement := by
  refine ⟨Nat.le_trans ?_ h.level, h.descent, h.depth⟩
  show s.frames.height + (s.sumDescent - s.frames.top.descent) +
      (s.sumChained - s.frames.top.chain) ≤ s.frames.height + s.sumDescent + s.sumChained
  omega

theorem closeStatement (h : Bounded deep most s) : Bounded deep most s.closeStatement := by
  have helement := h.closeElement
  refine ⟨Nat.le_trans ?_ helement.level, helement.descent, helement.depth⟩
  exact Nat.add_le_add_left (Nat.sub_le _ _) _

theorem startOperand (h : Bounded deep most s) : Bounded deep most s.startOperand := by
  rw [Scan.startOperand]
  split
  · exact h.closeStatement.expecting _
  · exact h

/-- What a level that has just been opened is counted as. -/
theorem raised (h : Bounded deep most s) (hdeep : deep < most) {t : Scan}
    (hlevel : t.level = s.level + 1) (hestimate : t.estimate = s.estimate) :
    Bounded (deep + 1) most t.record := by
  refine Bounded.record ⟨?_, ?_, ?_⟩ hdeep
  · rw [hlevel]
    exact Nat.succ_le_succ h.level
  · rw [hestimate]
    exact h.descent
  · rw [hestimate]
    exact h.depth

theorem addUnary (h : Bounded deep most s) (hdeep : deep < most) :
    Bounded (deep + 1) most s.addUnary := by
  refine h.raised hdeep ?_ rfl
  show s.frames.height + (s.sumDescent + 1) + s.sumChained = s.level + 1
  rw [Scan.level]
  omega

theorem addRight (h : Bounded deep most s) (hdeep : deep < most) :
    Bounded (deep + 1) most s.addRight := by
  refine h.closeUnary.raised hdeep ?_ rfl
  show s.closeUnary.frames.height + (s.closeUnary.sumDescent + 1) + s.closeUnary.sumChained =
    s.closeUnary.level + 1
  rw [Scan.level]
  omega

theorem addChain (h : Bounded deep most s) (hdeep : deep < most) :
    Bounded (deep + 1) most s.addChain :=
  h.raised hdeep rfl rfl

theorem addBinary (h : Bounded deep most s) (hdeep : deep < most) :
    Bounded (deep + 1) most s.addBinary :=
  h.closeUnary.addChain hdeep

theorem addComma (h : Bounded deep most s) (hdeep : deep < most) :
    Bounded (deep + 1) most s.addComma :=
  h.raised hdeep rfl rfl

theorem push (h : Bounded deep most s) (hdeep : deep < most) (opening : Opening) :
    Bounded (deep + 1) most (s.push opening) := by
  refine h.raised hdeep ?_ rfl
  show s.frames.height + 1 + s.sumDescent + s.sumChained = s.level + 1
  rw [Scan.level]
  omega

theorem pop (h : Bounded deep most s) : Bounded deep most s.pop.2 := by
  obtain ⟨⟨top, below, height, heq⟩, e, newline, d, c, estimate⟩ := s
  cases below with
  | nil => exact h
  | cons next rest =>
    refine ⟨Nat.le_trans ?_ h.level, h.descent, h.depth⟩
    show height - 1 + (d - top.descent) + (c - top.chained) ≤ height + d + c
    omega

end Bounded

/-! ## Tokens -/

namespace Paid

theorem start : Paid 0 start :=
  ⟨⟨Nat.le_refl 0, Nat.le_refl 0, Nat.le_refl 0⟩, fun h => nomatch h⟩

theorem mono (h : Paid n s) {m : Nat} (hn : n ≤ m) : Paid m s :=
  ⟨h.bounded.mono hn hn, fun he => Nat.lt_of_lt_of_le (h.operator he) hn⟩

theorem next (h : Paid n s) : Bounded n (n + 1) s :=
  h.bounded.mono (Nat.le_refl n) (Nat.le_succ n)

/-- A token that opens no level may leave an operator expected. -/
theorem of_closed (h : Bounded n (n + 1) s) (e : Expect) : Paid (n + 1) (s.expecting e) :=
  ⟨(h.expecting e).mono (Nat.le_succ n) (Nat.le_refl _), fun _ => Nat.lt_succ_of_le h.level⟩

/-- A token that opens a level may not. -/
theorem of_opened (h : Bounded (n + 1) (n + 1) s) {e : Expect} (he : e ≠ .operator) :
    Paid (n + 1) (s.expecting e) :=
  ⟨h.expecting e, fun hoperator => absurd hoperator he⟩

theorem startOperand (h : Paid n s) : Paid n s.startOperand := by
  refine ⟨h.bounded.startOperand, fun he => ?_⟩
  rw [Scan.startOperand] at he ⊢
  split at he
  · cases he
  · rename_i hsame
    rw [if_neg hsame]
    exact h.operator he

theorem word (h : Paid n s) (w : String) : Paid (n + 1) (s.word w) := by
  have hoperand := h.next.startOperand
  have hn := Nat.lt_succ_self n
  rw [Scan.word]
  split
  · exact of_closed h.next _
  · cases WordClass.of w with
    | relation =>
      show Paid (n + 1) (if _ then _ else _)
      split
      · exact of_opened (h.next.addBinary hn) (by decide)
      · exact of_closed hoperand _
    | unary => exact of_opened (hoperand.addUnary hn) (by decide)
    | head => exact of_opened (hoperand.addRight hn) (by decide)
    | value => exact of_closed hoperand _
    | opening => exact of_closed hoperand _
    | plain => exact of_closed hoperand _

theorem mark (h : Paid n s) (m : MarkClass) : Paid (n + 1) (s.mark m) := by
  have hoperand := h.next.startOperand
  have hn := Nat.lt_succ_self n
  cases m with
  | semicolon => exact of_closed h.next.closeStatement _
  | comma =>
    have helement := h.next.closeElement
    show Paid (n + 1) (expecting (if _ then _ else _) .operand)
    split
    · exact of_opened (helement.addComma hn) (by decide)
    · exact of_closed helement _
  | point => exact of_opened (h.next.addChain hn) (by decide)
  | arrow => exact of_opened (h.next.addRight hn) (by decide)
  | rightAssociative => exact of_opened (h.next.addRight hn) (by decide)
  | not => exact of_opened (hoperand.addUnary hn) (by decide)
  | update =>
    show Paid (n + 1) (if _ then _ else _)
    split
    · exact h.startOperand.mono (Nat.le_succ n)
    · exact of_opened (hoperand.addUnary hn) (by decide)
  | sign =>
    show Paid (n + 1) (if _ then _ else _)
    split
    · exact of_opened (h.next.addBinary hn) (by decide)
    · exact of_opened (h.next.addUnary hn) (by decide)
  | separator => exact of_closed h.next _
  | binary => exact of_opened (h.next.addBinary hn) (by decide)

/-- The operand before a call or an index has left the level that its link takes. -/
theorem link (h : Paid n s) (he : s.expect = .operator) : Bounded n (n + 1) s.addChain := by
  obtain ⟨deep, rfl⟩ := Nat.exists_eq_add_one_of_ne_zero (Nat.ne_zero_of_lt (h.operator he))
  have hlevel : Bounded deep (deep + 1 + 1) s :=
    ⟨Nat.le_of_lt_succ (h.operator he), h.next.descent, h.next.depth⟩
  exact hlevel.addChain (by omega)

theorem openParen (h : Paid n s) : Paid (n + 1) s.openParen := by
  have hn := Nat.lt_succ_self n
  refine of_opened ?_ (by decide)
  split
  · rename_i he
    exact (h.link (beq_iff_eq.mp he)).push hn _
  · exact h.next.push hn _

theorem openBracket (h : Paid n s) : Paid (n + 1) s.openBracket := by
  refine of_opened (Bounded.push ?_ (Nat.lt_succ_self n) _) (by decide)
  split
  · rename_i he
    exact h.link (beq_iff_eq.mp he)
  · exact h.next.startOperand

theorem openBrace (h : Paid n s) : Paid (n + 1) s.openBrace := by
  rw [Scan.openBrace]
  split
  · exact of_opened (h.next.push (Nat.lt_succ_self n) _) (by decide)
  · exact of_opened (h.next.push (Nat.lt_succ_self n) _) (by decide)

theorem closeGroup (h : Paid n s) : Paid (n + 1) s.closeGroup :=
  of_closed h.next.pop _

theorem template (h : Bounded n (n + 1) s) (rest : List UInt8) :
    Paid (n + 1) (s.template rest).1 := by
  rw [Scan.template]
  split
  · exact of_closed h _
  · exact of_opened (h.push (Nat.lt_succ_self n) _) (by decide)

theorem closeBrace (h : Paid n s) (rest : List UInt8) : Paid (n + 1) (s.closeBrace rest).1 := by
  have hpop := h.next.pop
  rw [Scan.closeBrace]
  split
  · rename_i heq
    rw [heq] at hpop
    exact template hpop rest
  · rename_i heq
    rw [heq] at hpop
    refine of_closed ?_ _
    split
    · exact hpop.closeStatement
    · exact hpop
  · rename_i heq
    rw [heq] at hpop
    exact of_closed hpop _

theorem token (h : Paid n s) (b : UInt8) (rest : List UInt8) :
    Paid (n + 1) (s.token b rest).1 := by
  have hliteral := of_closed h.next.startOperand .operator
  unfold Scan.token
  refine fst_ite (Paid (n + 1)) (fun _ => hliteral) fun _ => ?_
  refine fst_ite (Paid (n + 1)) (fun _ => template h.next.startOperand rest) fun _ => ?_
  refine fst_ite (Paid (n + 1)) (fun _ => hliteral) fun _ => ?_
  refine fst_ite (Paid (n + 1)) (fun _ => h.openParen) fun _ => ?_
  refine fst_ite (Paid (n + 1)) (fun _ => h.openBracket) fun _ => ?_
  refine fst_ite (Paid (n + 1)) (fun _ => h.openBrace) fun _ => ?_
  refine fst_ite (Paid (n + 1)) (fun _ => h.closeGroup) fun _ => ?_
  refine fst_ite (Paid (n + 1)) (fun _ => h.closeBrace rest) fun _ => ?_
  refine fst_ite (Paid (n + 1)) (fun _ => hliteral) fun _ => ?_
  refine fst_ite (Paid (n + 1)) (fun _ => h.word _) fun _ => ?_
  split
  · exact h.mark _
  · exact h.mono (Nat.le_succ n)

/-! ## The scan -/

theorem step {t : Scan} {text rest : List UInt8} (h : Paid n s)
    (hstep : s.step text = some (t, rest)) : Paid (n + 1) t := by
  obtain ⟨newline, b, after, -, htoken⟩ := gap_of_step hstep
  obtain ⟨rfl, -⟩ := Prod.mk.inj htoken
  have hnewline : Paid n { s with newline } :=
    ⟨⟨h.bounded.level, h.bounded.descent, h.bounded.depth⟩, h.operator⟩
  have hpaid := hnewline.token b after
  exact ⟨⟨hpaid.bounded.level, hpaid.bounded.descent, hpaid.bounded.depth⟩, hpaid.operator⟩

/-- The invariant of a run: what has been read pays, and a step reads at least one byte. -/
theorem run (h : Paid n s) (hs : s.Balanced) (fuel : Nat) (text : List UInt8) :
    (Scan.run fuel s text).Balanced ∧ Paid (n + text.length) (Scan.run fuel s text) := by
  induction fuel generalizing n s text with
  | zero => exact ⟨hs, h.mono (Nat.le_add_right n _)⟩
  | succ fuel ih =>
    cases hstep : s.step text with
    | none =>
      rw [run_of_step_none hstep]
      exact ⟨hs, h.mono (Nat.le_add_right n _)⟩
    | some r =>
      obtain ⟨t, rest⟩ := r
      obtain ⟨ht, -, hlength⟩ := hs.step hstep
      obtain ⟨hbalanced, hpaid⟩ := ih (h.step hstep) ht rest
      rw [Scan.run, hstep]
      exact ⟨hbalanced, hpaid.mono (by omega)⟩

end Paid

/-- The counters of a level are no more than the open levels of all kinds. -/
theorem Balanced.counters_le_level (h : s.Balanced) {f : Frame} (hf : f ∈ s.levels) :
    f.descent + f.chained ≤ s.level := by
  have hdescent := List.single_le_sum (fun x _ => Nat.zero_le x) _
    (List.mem_map_of_mem (f := Frame.descent) hf)
  have hchained := List.single_le_sum (fun x _ => Nat.zero_le x) _
    (List.mem_map_of_mem (f := Frame.chained) hf)
  rw [h.descent] at hdescent
  rw [h.chained] at hchained
  rw [level]
  omega

end Scan

/-- No state of a scan has more levels open than the text has bytes, and its estimates are bounded
by one another and by the bytes. -/
theorem run_le_length (bytes : List UInt8) (steps : Nat) :
    (Scan.run steps .start bytes).level ≤ bytes.length ∧
    (∀ f ∈ (Scan.run steps .start bytes).levels, f.descent + f.chained ≤ bytes.length) ∧
    (Scan.run steps .start bytes).estimate.descent ≤
      (Scan.run steps .start bytes).estimate.depth ∧
    (Scan.run steps .start bytes).estimate.depth ≤ bytes.length := by
  obtain ⟨hbalanced, ⟨hlevel, hdescent, hdepth⟩, -⟩ :=
    Scan.Paid.start.run .start steps bytes
  rw [Nat.zero_add] at hlevel hdepth
  exact ⟨hlevel, fun f hf => Nat.le_trans (hbalanced.counters_le_level hf) hlevel, hdescent, hdepth⟩

end ScriptFeatures.Nesting
