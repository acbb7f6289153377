import ScriptFeatures.Proofs.Nesting.Machine

/-! The scan is safe on every text. From a balanced state one iteration of the checked machine does
what a step of the scan does, moves on by at least one byte and ends in a balanced state, so the
machine never stops with a fault, whatever the text, and comes to its end after at most as many
iterations as the text has bytes. -/

namespace ScriptFeatures.Nesting

open Outcome (bind_eq_ok_iff)

/-! ## One iteration -/

namespace Scan

variable {s t : Scan} {src rest : List UInt8} {pos : Nat}

/-- At the end of the text the machine stops. -/
theorem iterate_of_step_none (hstep : s.step (src.drop pos) = none) :
    (s.machine pos).iterate src = .ok none := by
  obtain ⟨stop, hgap, -, hrest⟩ := leaves_gapEnd src .between s.newline pos
  rw [step] at hstep
  cases hskip : skipGap .between s.newline (src.drop pos) with
  | mk newline after =>
    cases after with
    | nil =>
      rw [hskip] at hrest
      exact bind_eq_ok_iff.mpr ⟨_, hgap, if_neg (not_lt_of_drop hrest)⟩
    | cons b after =>
      rw [hskip] at hstep
      exact nomatch hstep

/-- Before the end it does what the scan does, and uses at least one byte. -/
theorem Balanced.iterate_of_step_some (h : s.Balanced)
    (hstep : s.step (src.drop pos) = some (t, rest)) :
    t.Balanced ∧ pos < src.length ∧
      ∃ stop, (s.machine pos).iterate src = .ok (some (t.machine stop)) ∧ pos < stop ∧
        src.drop stop = rest := by
  obtain ⟨start, hgap, hstart, hrest⟩ := leaves_gapEnd src .between s.newline pos
  rw [step] at hstep
  cases hskip : skipGap .between s.newline (src.drop pos) with
  | mk newline after =>
    cases after with
    | nil =>
      rw [hskip] at hstep
      exact nomatch hstep
    | cons b after =>
      rw [hskip] at hgap hrest hstep
      cases hstep
      have hnewline : Balanced { s with newline } := h
      have hlt := lt_length_of_drop hrest
      obtain ⟨stop, htoken, hstop, hafter⟩ := hnewline.token_machine hrest
      refine ⟨hnewline.token b after, by omega, stop, ?_, by omega, hafter⟩
      refine bind_eq_ok_iff.mpr ⟨_, hgap, (if_pos hlt).trans ?_⟩
      exact bind_eq_ok_iff.mpr ⟨_, htoken, rfl⟩

theorem run_of_step_none {text : List UInt8} (hstep : s.step text = none) (fuel : Nat) :
    run fuel s text = s := by
  cases fuel with
  | zero => rfl
  | succ fuel => rw [run, hstep]

end Scan

/-! ## The whole scan -/

/-- The states of the machine before its iterations over a text: the one before iteration `n`. -/
inductive Machine.Reached (src : List UInt8) : Nat → Machine → Prop
  | start : Reached src 0 .start
  | next {n : Nat} {m m' : Machine} (before : Reached src n m)
      (iteration : m.iterate src = .ok (some m')) : Reached src (n + 1) m'

namespace Machine.Reached

variable {src : List UInt8} {n : Nat} {m : Machine}

/-- The invariant: a reached state is a balanced state of the scan, which has made as many steps and
used at least as many bytes. -/
theorem exists_scan (h : Reached src n m) :
    ∃ s : Scan, m = s.machine m.pos ∧ s.Balanced ∧ n ≤ m.pos ∧ n ≤ src.length ∧
      ∀ fuel, Scan.run (n + fuel) .start src = Scan.run fuel s (src.drop m.pos) := by
  induction h with
  | start =>
    refine ⟨.start, rfl, .start, Nat.le_refl 0, Nat.zero_le _, fun fuel => ?_⟩
    rw [Nat.zero_add]
    rfl
  | @next n m m' _ hiteration ih =>
    obtain ⟨s, hm, hs, hpos, -, hrun⟩ := ih
    rw [hm] at hiteration
    cases hstep : s.step (src.drop m.pos) with
    | none =>
      rw [Scan.iterate_of_step_none hstep] at hiteration
      exact nomatch hiteration
    | some r =>
      obtain ⟨t, rest⟩ := r
      obtain ⟨ht, hlt, stop, hmachine, hstop, hrest⟩ := hs.iterate_of_step_some hstep
      rw [hmachine] at hiteration
      cases hiteration
      refine ⟨t, rfl, ht, ?_, by omega, fun fuel => ?_⟩
      · show n + 1 ≤ stop
        omega
      · have hfuel : n + 1 + fuel = n + (fuel + 1) := by omega
        rw [hfuel, hrun, Scan.run, hstep]
        show Scan.run fuel t rest = Scan.run fuel t (src.drop stop)
        rw [hrest]

/-- No iteration faults, and each one moves on. -/
theorem iterate (h : Reached src n m) :
    ∃ next, m.iterate src = .ok next ∧ ∀ m' ∈ next, m.pos < src.length ∧ m.pos < m'.pos := by
  obtain ⟨s, hm, hs, -⟩ := h.exists_scan
  cases hstep : s.step (src.drop m.pos) with
  | none =>
    rw [hm]
    exact ⟨none, Scan.iterate_of_step_none hstep, fun _ hnone => nomatch hnone⟩
  | some r =>
    obtain ⟨-, hlt, stop, hmachine, hstop, -⟩ := hs.iterate_of_step_some hstep
    rw [hm]
    refine ⟨_, hmachine, ?_⟩
    rintro m' ⟨⟩
    exact ⟨hlt, hstop⟩

/-- The machine comes to its end. -/
theorem exists_last {n : Nat} {m : Machine} (h : Reached src n m) :
    ∃ k last, Reached src k last ∧ last.iterate src = .ok none := by
  obtain ⟨next, hiterate, hpos⟩ := h.iterate
  cases next with
  | none => exact ⟨n, m, h, hiterate⟩
  | some m' =>
    obtain ⟨hlt, hmore⟩ := hpos m' rfl
    exact (h.next hiterate).exists_last
termination_by src.length - m.pos

/-- What it has found there is the estimate of the text. -/
theorem estimate_eq (h : Reached src n m) (hlast : m.iterate src = .ok none) :
    m.estimate = estimateBytes src := by
  obtain ⟨s, hm, hs, -, hlength, hrun⟩ := h.exists_scan
  have hstep : s.step (src.drop m.pos) = none := by
    rw [hm] at hlast
    cases hstep : s.step (src.drop m.pos) with
    | none => rfl
    | some r =>
      obtain ⟨-, -, stop, hmachine, -⟩ := hs.iterate_of_step_some hstep
      rw [hlast] at hmachine
      exact nomatch hmachine
  have hfuel : src.length = n + (src.length - n) := by omega
  rw [estimateBytes, hfuel, hrun, Scan.run_of_step_none hstep, hm]
  rfl

end Machine.Reached

/-- The scan of any bytes is safe. Whenever the machine is about to begin an iteration, its stack
has the level of the script at the bottom and nowhere else and the sums belong to it; the state is
that of the scan after as many steps; no fault stops the iteration, and it moves on. After at most
as many iterations as there are bytes the machine is at its end, with the estimate. -/
theorem scan_safe (src : List UInt8) :
    (∀ n m, Machine.Reached src n m →
      m.Balanced ∧ m = (Scan.run n .start src).machine m.pos ∧
      ∃ next, m.iterate src = .ok next ∧ ∀ m' ∈ next, m.pos < m'.pos) ∧
    ∃ n ≤ src.length, ∃ m, Machine.Reached src n m ∧ m.iterate src = .ok none ∧
      m.estimate = estimateBytes src := by
  constructor
  · intro n m h
    obtain ⟨s, hm, hs, -, -, hrun⟩ := h.exists_scan
    obtain ⟨next, hiterate, hpos⟩ := h.iterate
    have hscan : Scan.run n .start src = s := hrun 0
    rw [hscan]
    refine ⟨?_, hm, next, hiterate, fun m' hm' => (hpos m' hm').2⟩
    rw [hm]
    exact hs
  · obtain ⟨n, m, h, hlast⟩ := (Machine.Reached.start : Machine.Reached src 0 .start).exists_last
    obtain ⟨-, -, -, -, hlength, -⟩ := h.exists_scan
    exact ⟨n, hlength, m, h, hlast, h.estimate_eq hlast⟩

end ScriptFeatures.Nesting
