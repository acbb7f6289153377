import ScriptFeatures.Proofs.Nesting.Safety

/-! Steps of a scan. `Steps` takes any number of them and `finish` all of them. A balanced scan has
made all its steps after as many as the text has bytes, so what it finishes with does not change
when some of its steps are made first (`Steps.finish_eq`), and the number of steps is not needed
any more. -/

namespace ScriptFeatures.Nesting

namespace Scan

/-- Steps from a state and a text lead to another state and what is left of the text. -/
inductive Steps : Scan → List UInt8 → Scan → List UInt8 → Prop
  | refl (s : Scan) (text : List UInt8) : Steps s text s text
  | next {s t u : Scan} {text between rest : List UInt8} (first : s.step text = some (t, between))
      (others : Steps t between u rest) : Steps s text u rest

/-- The state at the end of a text. -/
def finish (s : Scan) (text : List UInt8) : Scan :=
  run text.length s text

theorem estimateBytes_eq (bytes : List UInt8) :
    estimateBytes bytes = (start.finish bytes).estimate := rfl

variable {s t u : Scan} {text between rest : List UInt8}

/-! ## One step -/

theorem step_of_gap {newline : Bool} {b : UInt8} {after : List UInt8}
    (hgap : skipGap .between s.newline text = (newline, b :: after)) :
    s.step text = some ({ (token { s with newline } b after).1 with newline := false },
      (token { s with newline } b after).2) := by
  rw [step, hgap]

theorem gap_of_step (hstep : s.step text = some (t, rest)) :
    ∃ newline b after, skipGap .between s.newline text = (newline, b :: after) ∧
      ({ (token { s with newline } b after).1 with newline := false },
        (token { s with newline } b after).2) = (t, rest) := by
  cases hgap : skipGap .between s.newline text with
  | mk newline left =>
    cases left with
    | nil =>
      rw [step, hgap] at hstep
      cases hstep
    | cons b after =>
      rw [step_of_gap hgap] at hstep
      exact ⟨newline, b, after, rfl, Option.some.inj hstep⟩

namespace Balanced

theorem step (h : s.Balanced) (hstep : s.step text = some (t, rest)) :
    t.Balanced ∧ rest <:+ text ∧ rest.length < text.length := by
  have hdrop : s.step (text.drop 0) = some (t, rest) := hstep
  obtain ⟨ht, hlength, stop, -, hstop, hrest⟩ := h.iterate_of_step_some hdrop
  rw [← hrest]
  refine ⟨ht, List.drop_suffix stop text, ?_⟩
  rw [List.length_drop]
  exact Nat.sub_lt hlength hstop

/-- Once there are as many steps as bytes, more of them change nothing. -/
theorem run_eq_run (h : s.Balanced) {m n : Nat} (hm : text.length ≤ m) (hn : text.length ≤ n) :
    run m s text = run n s text := by
  induction m generalizing n s text with
  | zero =>
    obtain rfl := List.length_eq_zero_iff.mp (Nat.le_zero.mp hm)
    rw [run_of_step_none rfl, run_of_step_none rfl]
  | succ m ih =>
    cases hstep : s.step text with
    | none => rw [run_of_step_none hstep, run_of_step_none hstep]
    | some r =>
      obtain ⟨t, rest⟩ := r
      obtain ⟨ht, -, hlt⟩ := h.step hstep
      obtain ⟨n, rfl⟩ := Nat.exists_eq_add_one_of_ne_zero
        (Nat.ne_of_gt (Nat.lt_of_lt_of_le (Nat.zero_lt_of_lt hlt) hn))
      rw [run, run, hstep]
      exact ih ht (by omega) (by omega)

theorem finish_step (h : s.Balanced) (hstep : s.step text = some (t, rest)) :
    s.finish text = t.finish rest := by
  obtain ⟨ht, -, hlt⟩ := h.step hstep
  have hrun : run (text.length + 1) s text = run text.length t rest := by
    rw [run, hstep]
  rw [finish, finish, h.run_eq_run (Nat.le_refl _) (Nat.le_succ _), hrun]
  exact ht.run_eq_run (Nat.le_of_lt hlt) (Nat.le_refl _)

/-- What is passed over before a token leaves its line breaks behind and nothing else. -/
theorem estimate_finish_gap (h : s.Balanced) {newline : Bool}
    (hgap : skipGap .between s.newline text = skipGap .between newline rest) :
    (s.finish text).estimate = (finish { s with newline } rest).estimate := by
  have hnewline : Balanced { s with newline } := h
  cases hleft : skipGap .between newline rest with
  | mk newline' left =>
    rw [hleft] at hgap
    cases left with
    | nil =>
      have hstep : s.step text = none := by
        rw [Scan.step, hgap]
      have hrest : Scan.step { s with newline } rest = none := by
        simp only [Scan.step, hleft]
      rw [finish, finish, run_of_step_none hstep, run_of_step_none hrest]
    | cons b after =>
      have hrest : skipGap .between ({ s with newline } : Scan).newline rest =
          (newline', b :: after) := hleft
      rw [h.finish_step (step_of_gap hgap), hnewline.finish_step (step_of_gap hrest)]

end Balanced

/-! ## Many steps -/

namespace Steps

theorem single (h : s.step text = some (t, rest)) : Steps s text t rest :=
  .next h (.refl t rest)

theorem trans (first : Steps s text t between) (others : Steps t between u rest) :
    Steps s text u rest := by
  induction first with
  | refl => exact others
  | next hstep _ ih => exact .next hstep (ih others)

theorem balanced (h : Steps s text t rest) (hs : s.Balanced) : t.Balanced := by
  induction h with
  | refl => exact hs
  | next hstep _ ih => exact ih (hs.step hstep).1

theorem suffix (h : Steps s text t rest) (hs : s.Balanced) : rest <:+ text := by
  induction h with
  | refl => exact List.suffix_rfl
  | next hstep _ ih =>
    obtain ⟨ht, hsuffix, -⟩ := hs.step hstep
    exact (ih ht).trans hsuffix

theorem finish_eq (h : Steps s text t rest) (hs : s.Balanced) : s.finish text = t.finish rest := by
  induction h with
  | refl => rfl
  | next hstep _ ih => rw [hs.finish_step hstep, ih (hs.step hstep).1]

end Steps

end Scan

end ScriptFeatures.Nesting
