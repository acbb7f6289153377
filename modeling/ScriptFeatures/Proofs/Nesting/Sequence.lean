import ScriptFeatures.Proofs.Nesting.Locality

/-! Statements one after the other. The estimate is only ever raised, and nothing that a scan does
depends on how far it has been raised (`Steps.raise`). A semicolon on the level of the whole script
brings everything else back to the start (`Balanced.step_semicolon`), so the estimate of a statement
with its semicolon and what follows it is the maximum of the two. -/

namespace ScriptFeatures.Nesting

/-- The maximum of the descents and of the depths. -/
instance : Max Estimate :=
  ⟨fun a b => ⟨max a.descent b.descent, max a.depth b.depth⟩⟩

namespace Estimate

theorem max_def (a b : Estimate) : max a b = ⟨max a.descent b.descent, max a.depth b.depth⟩ := rfl

theorem max_assoc (a b c : Estimate) : max (max a b) c = max a (max b c) := by
  simp only [max_def, Nat.max_assoc]

theorem max_self (a : Estimate) : max a a = a := by
  simp only [max_def, Nat.max_self]

theorem max_max_self (a b : Estimate) : max (max a b) b = max a b := by
  rw [max_assoc, max_self]

theorem max_zero (a : Estimate) : max a ⟨0, 0⟩ = a := by
  simp only [max_def, Nat.max_zero]

end Estimate

namespace Scan

/-- A scan that had found an estimate before. -/
def raise (e : Estimate) (s : Scan) : Scan :=
  { s with estimate := max e s.estimate }

variable {s t : Scan} {e : Estimate} {b : UInt8} {text rest : List UInt8}

/-! ## Nothing depends on the estimate -/

section

variable (e : Estimate) (s : Scan)

@[simp] theorem frames_raise : (s.raise e).frames = s.frames := rfl

@[simp] theorem expect_raise : (s.raise e).expect = s.expect := rfl

@[simp] theorem expecting_raise (x : Expect) : (s.raise e).expecting x = (s.expecting x).raise e :=
  rfl

@[simp] theorem closeUnary_raise : (s.raise e).closeUnary = s.closeUnary.raise e := rfl

@[simp] theorem closeElement_raise : (s.raise e).closeElement = s.closeElement.raise e := rfl

@[simp] theorem closeStatement_raise : (s.raise e).closeStatement = s.closeStatement.raise e := rfl

theorem record_raise : (s.raise e).record = s.record.raise e := by
  simp only [record, raise, Estimate.max_def, Nat.max_assoc]

@[simp] theorem addUnary_raise : (s.raise e).addUnary = s.addUnary.raise e := by
  rw [addUnary, addUnary, ← record_raise]
  rfl

@[simp] theorem addRight_raise : (s.raise e).addRight = s.addRight.raise e := by
  rw [addRight, addRight, ← record_raise]
  rfl

@[simp] theorem addChain_raise : (s.raise e).addChain = s.addChain.raise e := by
  rw [addChain, addChain, ← record_raise]
  rfl

@[simp] theorem addBinary_raise : (s.raise e).addBinary = s.addBinary.raise e :=
  addChain_raise e s.closeUnary

@[simp] theorem addComma_raise : (s.raise e).addComma = s.addComma.raise e := by
  rw [addComma, addComma, ← record_raise]
  rfl

@[simp] theorem push_raise (opening : Opening) :
    (s.raise e).push opening = (s.push opening).raise e := by
  rw [push, push, ← record_raise]
  rfl

@[simp] theorem pop_raise : (s.raise e).pop = (s.pop.1, s.pop.2.raise e) := by
  obtain ⟨⟨top, below, height, hheight⟩, x, newline, d, c, estimate⟩ := s
  cases below with
  | nil => rfl
  | cons => rfl

theorem raise_ite (c : Prop) [Decidable c] (s t : Scan) :
    (if c then s.raise e else t.raise e) = (if c then s else t).raise e :=
  (apply_ite (raise e) c s t).symm

@[simp] theorem startOperand_raise : (s.raise e).startOperand = s.startOperand.raise e :=
  raise_ite e _ (s.closeStatement.expecting .statement) s

/-! ## Tokens of a raised scan -/

theorem word_raise (w : String) : (s.raise e).word w = (s.word w).raise e := by
  rw [word, word, ← raise_ite]
  cases WordClass.of w with
  | relation => simp [raise_ite]
  | unary | head | value | opening | plain => simp

theorem mark_raise (m : MarkClass) : (s.raise e).mark m = (s.mark m).raise e := by
  cases m with
  | semicolon | separator => rfl
  | comma => simp [mark, raise_ite]
  | update => simp [mark, raise_ite]
  | sign => simp [mark, raise_ite]
  | point | arrow | rightAssociative | not | binary => simp [mark]

theorem openParen_raise : (s.raise e).openParen = s.openParen.raise e := by
  simp [openParen, raise_ite]

theorem openBracket_raise : (s.raise e).openBracket = s.openBracket.raise e := by
  simp [openBracket, raise_ite]

theorem openBrace_raise : (s.raise e).openBrace = s.openBrace.raise e := by
  simp [openBrace, raise_ite]

theorem closeGroup_raise : (s.raise e).closeGroup = s.closeGroup.raise e := by
  simp [closeGroup]

theorem template_raise (rest : List UInt8) :
    (s.raise e).template rest = ((s.template rest).1.raise e, (s.template rest).2) := by
  rw [template, template]
  cases skipTemplate rest with
  | mk templateEnd after =>
    cases templateEnd with
    | closed => rfl
    | expression => simp

theorem closeBrace_raise (rest : List UInt8) :
    (s.raise e).closeBrace rest = ((s.closeBrace rest).1.raise e, (s.closeBrace rest).2) := by
  rw [closeBrace, closeBrace, pop_raise]
  cases s.pop with
  | mk opening t =>
    cases opening with
    | none => rfl
    | some opening =>
      cases opening with
      | template => exact template_raise e t rest
      | block => exact congrArg (expecting · .statement, rest) (raise_ite e _ t.closeStatement t)
      | root | paren | arguments | array | object => rfl

theorem pair_ite {c : Prop} [Decidable c] {x y x' y' : Scan × List UInt8}
    (hx : x' = (x.1.raise e, x.2)) (hy : y' = (y.1.raise e, y.2)) :
    (if c then x' else y') = ((if c then x else y).1.raise e, (if c then x else y).2) := by
  rw [hx, hy]
  split
  · rfl
  · rfl

theorem token_raise (b : UInt8) (rest : List UInt8) :
    (s.raise e).token b rest = ((s.token b rest).1.raise e, (s.token b rest).2) := by
  unfold token
  refine pair_ite e (by simp) ?_
  refine pair_ite e (by rw [startOperand_raise, template_raise]) ?_
  refine pair_ite e (by simp) ?_
  refine pair_ite e (by rw [openParen_raise]) ?_
  refine pair_ite e (by rw [openBracket_raise]) ?_
  refine pair_ite e (by rw [openBrace_raise]) ?_
  refine pair_ite e (by rw [closeGroup_raise]) ?_
  refine pair_ite e (closeBrace_raise e s rest) ?_
  refine pair_ite e (by simp) ?_
  refine pair_ite e (by rw [word_raise]) ?_
  cases readMark (b :: rest) with
  | mk mark after =>
    cases mark with
    | none => rfl
    | some mark => exact congrArg (·, after) (mark_raise e s mark)

theorem step_raise (text : List UInt8) :
    (s.raise e).step text = (s.step text).map fun r => (r.1.raise e, r.2) := by
  cases hgap : skipGap .between s.newline text with
  | mk newline left =>
    cases left with
    | nil =>
      have hraised : skipGap .between (s.raise e).newline text = (newline, []) := hgap
      rw [step, hraised, step, hgap]
      rfl
    | cons b after =>
      have hraised : skipGap .between (s.raise e).newline text = (newline, b :: after) := hgap
      have htoken := token_raise e { s with newline } b after
      rw [step_of_gap hraised, step_of_gap hgap]
      show some ({ (token (raise e { s with newline }) b after).1 with newline := false },
        (token (raise e { s with newline }) b after).2) = _
      rw [htoken]
      rfl

theorem run_raise (fuel : Nat) (text : List UInt8) :
    run fuel (s.raise e) text = (run fuel s text).raise e := by
  induction fuel generalizing s text with
  | zero => rfl
  | succ fuel ih =>
    have hraised := step_raise e s text
    cases hstep : s.step text with
    | none =>
      rw [hstep] at hraised
      rw [run_of_step_none hraised, run_of_step_none hstep]
    | some r =>
      obtain ⟨t, rest⟩ := r
      rw [hstep] at hraised
      rw [run, hraised, run, hstep]
      exact ih t rest

theorem finish_raise (text : List UInt8) : (s.raise e).finish text = (s.finish text).raise e :=
  run_raise e s text.length text

end

/-! ## The semicolon -/

theorem token_semicolon (s : Scan) (rest : List UInt8) :
    s.token 0x3B rest = (s.mark .semicolon, rest) := rfl

/-- When only the level of the whole script is open, the counters of all levels are its own, and
the semicolon closes them. -/
theorem Balanced.mark_semicolon (h : s.Balanced) (hroot : s.frames.below = []) :
    { s.mark .semicolon with newline := false } = Scan.start.raise s.estimate := by
  obtain ⟨⟨⟨opening, unary, right, chain, commas⟩, below, height, hheight⟩, x, newline, d, c,
    estimate⟩ := s
  obtain rfl : below = [] := hroot
  obtain rfl : height = 0 := hheight
  obtain rfl : opening = .root := Option.some.inj h.bottom
  obtain rfl : unary + right + 0 = d := h.descent
  obtain rfl : chain + commas + 0 = c := h.chained
  have hdescent : unary + right + 0 - (unary + right) = 0 := by omega
  have hchained : chain + commas + 0 - chain - commas = 0 := by omega
  show Scan.mk ⟨⟨.root, 0, 0, 0, 0⟩, [], 0, rfl⟩ .statement false
    (unary + right + 0 - (unary + right)) (chain + commas + 0 - chain - commas) estimate = _
  rw [hdescent, hchained, raise, Scan.start, Estimate.max_zero]
  rfl

/-- White space, comments and the semicolon lead back to the start. -/
theorem Balanced.step_semicolon (h : s.Balanced) (hroot : s.frames.below = [])
    (hgap : (skipGap .between s.newline text).2 = 0x3B :: rest) :
    s.step text = some (Scan.start.raise s.estimate, rest) := by
  cases hskip : skipGap .between s.newline text with
  | mk newline left =>
    rw [hskip] at hgap
    obtain rfl : left = 0x3B :: rest := hgap
    have hnewline : Balanced { s with newline } := h
    rw [step_of_gap hskip, token_semicolon]
    exact congrArg (fun t => some (t, rest)) (hnewline.mark_semicolon hroot)

end Scan

/-- The scan of these bytes and a semicolon comes to the semicolon as a token of its own, with no
bracket open. -/
def EndsStatement (bytes : List UInt8) : Prop :=
  ∃ s rest, Scan.Steps .start (bytes ++ [0x3B]) s rest ∧
    (skipGap .between s.newline rest).2 = [0x3B] ∧ s.frames.below = []

namespace EndsStatement

variable {bytes : List UInt8}

/-- The scan of the statement and of anything that follows it is back at the start after the
semicolon, with the estimate of the statement. -/
theorem exists_steps (h : EndsStatement bytes) :
    ∃ e, ∀ more, Scan.Steps .start (bytes ++ [0x3B] ++ more) (Scan.start.raise e) more := by
  obtain ⟨s, rest, hsteps, hgap, hroot⟩ := h
  have hs := hsteps.balanced .start
  have hleft : 0x3B ∈ (skipGap .between s.newline rest).2 := by
    rw [hgap]
    exact List.mem_singleton_self _
  have hsemicolon : 0x3B ∈ rest := (skipGap_suffix .between s.newline rest).subset hleft
  refine ⟨s.estimate, fun more => (hsteps.append .start more hsemicolon).trans (.single ?_)⟩
  exact hs.step_semicolon hroot (skipGap_append hgap more)

theorem estimateBytes_append (h : EndsStatement bytes) (more : List UInt8) :
    estimateBytes (bytes ++ [0x3B] ++ more) =
      max (estimateBytes (bytes ++ [0x3B])) (estimateBytes more) := by
  obtain ⟨e, hsteps⟩ := h.exists_steps
  have hmax (more : List UInt8) :
      estimateBytes (bytes ++ [0x3B] ++ more) = max e (estimateBytes more) := by
    rw [Scan.estimateBytes_eq, (hsteps more).finish_eq .start, Scan.finish_raise]
    rfl
  have hstatement : estimateBytes (bytes ++ [0x3B]) = e := by
    have hnil : estimateBytes [] = ⟨0, 0⟩ := rfl
    rw [← List.append_nil (bytes ++ [0x3B]), hmax, hnil, Estimate.max_zero]
  rw [hmax, hstatement]

end EndsStatement

/-- The estimate of a statement with its semicolon and anything after it is the maximum of the
estimates of both, so any number of copies of the statement have the estimate of one. -/
theorem estimateBytes_sequence {bytes : List UInt8} (h : EndsStatement bytes) :
    (∀ more, estimateBytes (bytes ++ [0x3B] ++ more) =
      max (estimateBytes (bytes ++ [0x3B])) (estimateBytes more)) ∧
    ∀ n, estimateBytes (List.replicate (n + 1) (bytes ++ [0x3B])).flatten =
      estimateBytes (bytes ++ [0x3B]) := by
  refine ⟨h.estimateBytes_append, fun n => ?_⟩
  induction n with
  | zero => rw [List.replicate_one, List.flatten_singleton]
  | succ n ih =>
    rw [List.replicate_succ, List.flatten_cons, h.estimateBytes_append, ih, Estimate.max_self]

/-- It holds of `-f(a);`, where a sign and a parenthesis nest and the call is a link of a chain. -/
theorem estimateBytes_sequence_call :
    EndsStatement [0x2D, 0x66, 0x28, 0x61, 0x29] ∧
    estimateBytes [0x2D, 0x66, 0x28, 0x61, 0x29, 0x3B] = ⟨2, 3⟩ ∧
    (∀ more, estimateBytes ([0x2D, 0x66, 0x28, 0x61, 0x29] ++ [0x3B] ++ more) =
      max (estimateBytes ([0x2D, 0x66, 0x28, 0x61, 0x29] ++ [0x3B])) (estimateBytes more)) ∧
    ∀ n, estimateBytes (List.replicate (n + 1) ([0x2D, 0x66, 0x28, 0x61, 0x29] ++ [0x3B])).flatten =
      estimateBytes ([0x2D, 0x66, 0x28, 0x61, 0x29] ++ [0x3B]) := by
  have h : EndsStatement [0x2D, 0x66, 0x28, 0x61, 0x29] :=
    ⟨_, [0x3B], .next rfl (.next rfl (.next rfl (.next rfl (.next rfl (.refl _ _))))), rfl, rfl⟩
  exact ⟨h, rfl, estimateBytes_sequence h⟩

end ScriptFeatures.Nesting
