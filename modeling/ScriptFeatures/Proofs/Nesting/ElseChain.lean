import ScriptFeatures.Nesting.Estimate
import ScriptFeatures.Proofs.Script.ElseChain
import ScriptFeatures.Proofs.Text.Bytes

/-! The estimate of a chain of conditionals. The semicolon before each `else` closes the heads of
all conditionals around it, so at the next conditional the scan knows of one open head, however
many there are, and the estimate stops growing at the third conditional. -/

namespace ScriptFeatures.Nesting

open Script (elseText)

namespace Scan

/-- The state on the level of the whole script when `heads` statement heads are open there and the
deepest place so far had the level `deepest`. -/
def atRoot (heads deepest : Nat) (e : Expect) : Scan :=
  ⟨Frames.root.setTop ⟨.root, 0, heads, 0, 0⟩, e, false, heads, 0, ⟨deepest, deepest⟩⟩

/-- The state in the parentheses of a condition. -/
def inCondition (heads deepest : Nat) (e : Expect) : Scan :=
  ⟨(Frames.root.setTop ⟨.root, 0, heads, 0, 0⟩).push .paren, e, false, heads, 0,
    ⟨deepest, deepest⟩⟩

/-! ## The tokens of a conditional -/

theorem step_if (heads deepest : Nat) (rest : List UInt8) :
    (atRoot heads deepest .statement).step (0x69 :: 0x66 :: 0x28 :: rest) =
      some (atRoot (heads + 1) (max deepest (heads + 1)) .statement, 0x28 :: rest) := by
  have hstep : (atRoot heads deepest .statement).step (0x69 :: 0x66 :: 0x28 :: rest) =
      some (atRoot (heads + 1) (max deepest (0 + (heads + 1))) .statement, 0x28 :: rest) := rfl
  rw [hstep, Nat.zero_add]

theorem step_open (heads deepest : Nat) (rest : List UInt8) :
    (atRoot heads deepest .statement).step (0x28 :: rest) =
      some (inCondition heads (max deepest (1 + heads)) .operand, rest) := rfl

theorem step_zero (heads deepest : Nat) (rest : List UInt8) :
    (inCondition heads deepest .operand).step (0x30 :: 0x29 :: rest) =
      some (inCondition heads deepest .operator, 0x29 :: rest) := rfl

theorem step_close (heads deepest : Nat) (rest : List UInt8) :
    (inCondition heads deepest .operator).step (0x29 :: rest) =
      some (atRoot heads deepest .operator, rest) := rfl

/-- The end of a statement closes every open head. -/
theorem step_semicolon (heads deepest : Nat) (e : Expect) (rest : List UInt8) :
    (atRoot heads deepest e).step (0x3B :: rest) =
      some (atRoot 0 deepest .statement, rest) := by
  have hstep : (atRoot heads deepest e).step (0x3B :: rest) =
      some (⟨Frames.root.setTop ⟨.root, 0, 0, 0, 0⟩, .statement, false, heads - (0 + heads), 0,
        ⟨deepest, deepest⟩⟩, rest) := rfl
  rw [hstep, Nat.zero_add, Nat.sub_self, atRoot]

theorem step_else (heads deepest : Nat) (rest : List UInt8) :
    (atRoot heads deepest .statement).step (0x65 :: 0x6C :: 0x73 :: 0x65 :: 0x20 :: rest) =
      some (atRoot (heads + 1) (max deepest (heads + 1)) .statement, 0x20 :: rest) := by
  have hstep : (atRoot heads deepest .statement).step
      (0x65 :: 0x6C :: 0x73 :: 0x65 :: 0x20 :: rest) =
      some (atRoot (heads + 1) (max deepest (0 + (heads + 1))) .statement, 0x20 :: rest) := rfl
  rw [hstep, Nat.zero_add]

/-! ## Running along a chain -/

theorem run_step {s s' : Scan} {text rest : List UInt8} (fuel : Nat)
    (h : s.step text = some (s', rest)) : run (fuel + 1) s text = run fuel s' rest := by
  rw [run, h]

theorem run_nil (fuel : Nat) (s : Scan) : run fuel s [] = s := by
  cases fuel <;> rfl

theorem run_space (fuel heads deepest : Nat) (text : List UInt8) :
    run fuel (atRoot heads deepest .statement) (0x20 :: text) =
      run fuel (atRoot heads deepest .statement) text := by
  cases fuel <;> rfl

/-- The bytes of a chain. -/
def elseBytes : Nat → List UInt8
  | 0 => [0x3B]
  | n + 1 =>
    [0x69, 0x66, 0x28, 0x30, 0x29, 0x3B, 0x65, 0x6C, 0x73, 0x65, 0x20] ++ elseBytes n

/-- A conditional with its `else` leaves one head open, whatever was open before. -/
theorem run_conditional (fuel heads deepest n : Nat) :
    run (fuel + 6) (atRoot heads deepest .statement) (elseBytes (n + 1)) =
      run fuel (atRoot 1 (max deepest (heads + 2)) .statement) (elseBytes n) := by
  have hbytes : elseBytes (n + 1) = 0x69 :: 0x66 :: 0x28 :: 0x30 :: 0x29 :: 0x3B ::
      0x65 :: 0x6C :: 0x73 :: 0x65 :: 0x20 :: elseBytes n := rfl
  have hdeepest : max (max (max deepest (heads + 1)) (1 + (heads + 1))) (0 + 1) =
      max deepest (heads + 2) := by omega
  rw [hbytes, run_step _ (step_if heads deepest _), run_step _ (step_open _ _ _),
    run_step _ (step_zero _ _ _), run_step _ (step_close _ _ _),
    run_step _ (step_semicolon _ _ _ _), run_step _ (step_else _ _ _), run_space, hdeepest]

/-- Once the estimate is 3, a chain with one open head does not raise it. -/
theorem run_elseBytes (fuel n : Nat) :
    (run (fuel + 6 * n + 1) (atRoot 1 3 .statement) (elseBytes n)).estimate = ⟨3, 3⟩ := by
  induction n with
  | zero =>
    rw [elseBytes, run_step _ (step_semicolon 1 3 .statement []), run_nil]
    rfl
  | succ n ih =>
    have hfuel : fuel + 6 * (n + 1) + 1 = fuel + 6 * n + 1 + 6 := by omega
    rw [hfuel, run_conditional]
    exact ih

end Scan

theorem length_elseBytes (n : Nat) : (Scan.elseBytes n).length = 11 * n + 1 := by
  induction n with
  | zero => rfl
  | succ n ih =>
    rw [Scan.elseBytes, List.length_append, ih]
    simp only [List.length_cons, List.length_nil]
    omega

theorem toUTF8_elseText (n : Nat) :
    (String.ofList (elseText n)).toUTF8.toList = Scan.elseBytes n := by
  rw [Text.toUTF8_ofList]
  induction n with
  | zero => rfl
  | succ n ih =>
    rw [elseText, List.flatMap_append, ih, Scan.elseBytes]
    rfl

/-- The estimate of every chain of at least two conditionals is that of two. -/
theorem estimate_elseText (n : Nat) :
    estimate (String.ofList (elseText (n + 2))) = ⟨3, 3⟩ := by
  have hfuel : 11 * (n + 2) + 1 = 5 * n + 10 + 6 * n + 1 + 6 + 6 := by omega
  have hstart : Scan.start = Scan.atRoot 0 0 .statement := rfl
  rw [estimate, toUTF8_elseText, estimateBytes, length_elseBytes, hfuel, hstart,
    Scan.run_conditional, Scan.run_conditional]
  exact Scan.run_elseBytes (5 * n + 10) n

end ScriptFeatures.Nesting
