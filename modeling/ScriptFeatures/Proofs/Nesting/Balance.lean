import Mathlib.Algebra.Ring.Nat
import ScriptFeatures.Nesting.Estimate

/-! The levels of a scan and the sums it keeps of them. `Balanced` says that the level of the whole
script is at the bottom of the stack and nowhere else, and that the sums are those of the counters
on the stack. Everything that a token does is made of a few operations on the innermost level, each
of which keeps this, so it holds after every token of every text, whether brackets match or not. -/

namespace ScriptFeatures.Nesting

/-- The levels of a scan, innermost first, with the sums of their counters. -/
structure Balanced (levels : List Frame) (sumDescent sumChained : Nat) : Prop where
  bottom : (levels.map Frame.opening).getLast? = some .root
  above : Opening.root ∉ (levels.map Frame.opening).dropLast
  descent : (levels.map Frame.descent).sum = sumDescent
  chained : (levels.map Frame.chained).sum = sumChained

instance (levels : List Frame) (sumDescent sumChained : Nat) :
    Decidable (Balanced levels sumDescent sumChained) :=
  decidable_of_iff
    ((levels.map Frame.opening).getLast? = some .root ∧
      Opening.root ∉ (levels.map Frame.opening).dropLast ∧
      (levels.map Frame.descent).sum = sumDescent ∧ (levels.map Frame.chained).sum = sumChained)
    ⟨fun ⟨hb, ha, hd, hc⟩ => ⟨hb, ha, hd, hc⟩, fun ⟨hb, ha, hd, hc⟩ => ⟨hb, ha, hd, hc⟩⟩

namespace Balanced

variable {f g : Frame} {below : List Frame} {d c : Nat}

theorem descent_le (h : Balanced (f :: below) d c) : f.descent ≤ d := by
  have := h.descent
  rw [List.map_cons, List.sum_cons] at this
  omega

theorem chained_le (h : Balanced (f :: below) d c) : f.chained ≤ c := by
  have := h.chained
  rw [List.map_cons, List.sum_cons] at this
  omega

/-- Counters of the innermost level change, and the sums with them. -/
theorem setTop (h : Balanced (f :: below) d c) (hopening : g.opening = f.opening) {d' c' : Nat}
    (hd : d' + f.descent = d + g.descent) (hc : c' + f.chained = c + g.chained) :
    Balanced (g :: below) d' c' where
  bottom := by
    rw [List.map_cons, hopening]
    exact h.bottom
  above := by
    rw [List.map_cons, hopening]
    exact h.above
  descent := by
    have := h.descent
    rw [List.map_cons, List.sum_cons] at this ⊢
    omega
  chained := by
    have := h.chained
    rw [List.map_cons, List.sum_cons] at this ⊢
    omega

theorem push (h : Balanced (f :: below) d c) {opening : Opening} (hopening : opening ≠ .root) :
    Balanced (.fresh opening :: f :: below) d c where
  bottom := h.bottom
  above := by
    rw [List.map_cons, List.map_cons, List.dropLast_cons_cons, List.mem_cons, not_or]
    exact ⟨hopening.symm, h.above⟩
  descent := by
    rw [List.map_cons, List.sum_cons, h.descent]
    exact Nat.zero_add d
  chained := by
    rw [List.map_cons, List.sum_cons, h.chained]
    exact Nat.zero_add c

theorem pop (h : Balanced (f :: g :: below) d c) :
    Balanced (g :: below) (d - f.descent) (c - f.chained) where
  bottom := h.bottom
  above := by
    have := h.above
    rw [List.map_cons, List.map_cons, List.dropLast_cons_cons, List.mem_cons, not_or] at this
    exact this.2
  descent := by
    have := h.descent
    rw [List.map_cons, List.sum_cons] at this
    omega
  chained := by
    have := h.chained
    rw [List.map_cons, List.sum_cons] at this
    omega

end Balanced

namespace Scan

/-- The levels of a scan, innermost first. -/
def levels (s : Scan) : List Frame :=
  s.frames.top :: s.frames.below

/-- The stack and the sums of a scan belong together. -/
def Balanced (s : Scan) : Prop :=
  Nesting.Balanced s.levels s.sumDescent s.sumChained

/-- A property that the state has behind either of two tokens. -/
theorem fst_ite (P : Scan → Prop) {c : Prop} [Decidable c] {r r' : Scan × List UInt8}
    (hr : c → P r.1) (hr' : ¬c → P r'.1) : P (if c then r else r').1 := by
  by_cases hc : c
  · rw [if_pos hc]
    exact hr hc
  · rw [if_neg hc]
    exact hr' hc

namespace Balanced

variable {s : Scan}

theorem start : Scan.start.Balanced := by
  show Nesting.Balanced [.fresh .root] 0 0
  decide

/-! ## Counters -/

theorem unary_le (h : s.Balanced) : s.frames.top.unary ≤ s.sumDescent :=
  Nat.le_trans (Nat.le_add_right _ _) h.descent_le

theorem chain_le (h : s.Balanced) : s.frames.top.chain ≤ s.sumChained :=
  Nat.le_trans (Nat.le_add_right _ _) h.chained_le

theorem commas_le (h : s.Balanced) : s.frames.top.commas ≤ s.sumChained :=
  Nat.le_trans (Nat.le_add_left _ _) h.chained_le

theorem closeUnary (h : s.Balanced) : s.closeUnary.Balanced := by
  have hle := h.unary_le
  refine h.setTop ?_ ?_ ?_
  · rfl
  · show s.sumDescent - s.frames.top.unary + (s.frames.top.unary + s.frames.top.right) =
      s.sumDescent + (0 + s.frames.top.right)
    omega
  · rfl

theorem closeElement (h : s.Balanced) : s.closeElement.Balanced := by
  have hdescent := h.descent_le
  have hchain := h.chain_le
  refine h.setTop ?_ ?_ ?_
  · rfl
  · show s.sumDescent - s.frames.top.descent + s.frames.top.descent = s.sumDescent + 0
    omega
  · show s.sumChained - s.frames.top.chain + (s.frames.top.chain + s.frames.top.commas) =
      s.sumChained + (0 + s.frames.top.commas)
    omega

theorem closeStatement (h : s.Balanced) : s.closeStatement.Balanced := by
  have hle := h.closeElement.commas_le
  refine h.closeElement.setTop ?_ ?_ ?_
  · rfl
  · rfl
  · show s.closeElement.sumChained - s.closeElement.frames.top.commas +
      (0 + s.closeElement.frames.top.commas) = s.closeElement.sumChained + (0 + 0)
    omega

theorem addUnary (h : s.Balanced) : s.addUnary.Balanced := by
  refine h.setTop ?_ ?_ ?_
  · rfl
  · show s.sumDescent + 1 + (s.frames.top.unary + s.frames.top.right) =
      s.sumDescent + (s.frames.top.unary + 1 + s.frames.top.right)
    omega
  · rfl

theorem addRight (h : s.Balanced) : s.addRight.Balanced := by
  refine h.closeUnary.setTop ?_ ?_ ?_
  · rfl
  · show s.closeUnary.sumDescent + 1 + (0 + s.frames.top.right) =
      s.closeUnary.sumDescent + (0 + (s.frames.top.right + 1))
    omega
  · rfl

theorem addChain (h : s.Balanced) : s.addChain.Balanced := by
  refine h.setTop ?_ ?_ ?_
  · rfl
  · rfl
  · show s.sumChained + 1 + (s.frames.top.chain + s.frames.top.commas) =
      s.sumChained + (s.frames.top.chain + 1 + s.frames.top.commas)
    omega

theorem addBinary (h : s.Balanced) : s.addBinary.Balanced :=
  h.closeUnary.addChain

theorem addComma (h : s.Balanced) : s.addComma.Balanced := by
  refine h.setTop ?_ ?_ ?_
  · rfl
  · rfl
  · show s.sumChained + 1 + (s.frames.top.chain + s.frames.top.commas) =
      s.sumChained + (s.frames.top.chain + (s.frames.top.commas + 1))
    omega

/-! ## Levels -/

theorem push (h : s.Balanced) {opening : Opening} (hopening : opening ≠ .root) :
    (s.push opening).Balanced :=
  Nesting.Balanced.push h hopening

theorem pop (h : s.Balanced) : s.pop.2.Balanced := by
  obtain ⟨⟨top, below, height, heq⟩, e, newline, d, c, estimate⟩ := s
  cases below with
  | nil => exact h
  | cons next rest => exact Nesting.Balanced.pop h

/-- What no counter depends on. -/
theorem expecting (h : s.Balanced) (e : Expect) : (s.expecting e).Balanced := h

theorem startOperand (h : s.Balanced) : s.startOperand.Balanced := by
  rw [Scan.startOperand]
  split
  · exact h.closeStatement.expecting _
  · exact h

/-! ## Tokens -/

theorem word (h : s.Balanced) (w : String) : (s.word w).Balanced := by
  rw [Scan.word]
  split
  · exact h.expecting _
  · cases WordClass.of w with
    | relation =>
      show Scan.Balanced (if _ then _ else _)
      split
      · exact h.addBinary.expecting _
      · exact h.startOperand.expecting _
    | unary => exact h.startOperand.addUnary.expecting _
    | head => exact h.startOperand.addRight.expecting _
    | value => exact h.startOperand.expecting _
    | opening => exact h.startOperand.expecting _
    | plain => exact h.startOperand.expecting _

theorem mark (h : s.Balanced) (m : MarkClass) : (s.mark m).Balanced := by
  cases m with
  | semicolon => exact h.closeStatement.expecting _
  | comma =>
    have h := h.closeElement
    show Scan.Balanced (if _ then _ else _)
    split
    · exact h.addComma
    · exact h
  | point => exact h.addChain.expecting _
  | arrow => exact h.addRight.expecting _
  | rightAssociative => exact h.addRight.expecting _
  | not => exact h.startOperand.addUnary.expecting _
  | update =>
    have h := h.startOperand
    show Scan.Balanced (if _ then _ else _)
    split
    · exact h
    · exact h.addUnary.expecting _
  | sign =>
    show Scan.Balanced (if _ then _ else _)
    split
    · exact h.addBinary.expecting _
    · exact h.addUnary.expecting _
  | separator => exact h.expecting _
  | binary => exact h.addBinary.expecting _

theorem openParen (h : s.Balanced) : s.openParen.Balanced := by
  show Scan.Balanced (if _ then _ else _)
  split
  · exact h.addChain.push (by decide)
  · exact h.push (by decide)

theorem openBracket (h : s.Balanced) : s.openBracket.Balanced := by
  refine Balanced.push ?_ (by decide)
  split
  · exact h.addChain
  · exact h.startOperand

theorem openBrace (h : s.Balanced) : s.openBrace.Balanced := by
  rw [Scan.openBrace]
  split
  · exact (h.push (by decide)).expecting _
  · exact (h.push (by decide)).expecting _

theorem closeGroup (h : s.Balanced) : s.closeGroup.Balanced :=
  h.pop.expecting _

theorem template (h : s.Balanced) (rest : List UInt8) : (s.template rest).1.Balanced := by
  rw [Scan.template]
  split
  · exact h.expecting _
  · exact (h.push (by decide)).expecting _

theorem closeBrace (h : s.Balanced) (rest : List UInt8) : (s.closeBrace rest).1.Balanced := by
  have hpop := h.pop
  rw [Scan.closeBrace]
  split
  · rename_i heq
    rw [heq] at hpop
    exact hpop.template rest
  · rename_i heq
    rw [heq] at hpop
    refine Balanced.expecting ?_ _
    split
    · exact hpop.closeStatement
    · exact hpop
  · rename_i heq
    rw [heq] at hpop
    exact hpop.expecting _

theorem token (h : s.Balanced) (b : UInt8) (rest : List UInt8) : (s.token b rest).1.Balanced := by
  unfold Scan.token
  refine fst_ite Scan.Balanced (fun _ => h.startOperand.expecting _) fun _ => ?_
  refine fst_ite Scan.Balanced (fun _ => h.startOperand.template rest) fun _ => ?_
  refine fst_ite Scan.Balanced (fun _ => h.startOperand.expecting _) fun _ => ?_
  refine fst_ite Scan.Balanced (fun _ => h.openParen) fun _ => ?_
  refine fst_ite Scan.Balanced (fun _ => h.openBracket) fun _ => ?_
  refine fst_ite Scan.Balanced (fun _ => h.openBrace) fun _ => ?_
  refine fst_ite Scan.Balanced (fun _ => h.closeGroup) fun _ => ?_
  refine fst_ite Scan.Balanced (fun _ => h.closeBrace rest) fun _ => ?_
  refine fst_ite Scan.Balanced (fun _ => h.startOperand.expecting _) fun _ => ?_
  refine fst_ite Scan.Balanced (fun _ => h.word _) fun _ => ?_
  split
  · exact h.mark _
  · exact h

end Balanced

end Scan

end ScriptFeatures.Nesting
