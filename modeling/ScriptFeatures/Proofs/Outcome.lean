/-! Computations that can fail. What the success of a composed computation says about its parts, and
invariants of loops that may stop early. -/

namespace ScriptFeatures.Outcome

variable {ε ε' α β σ : Type}

theorem bind_eq_ok_iff {x : Except ε α} {f : α → Except ε β} {b : β} :
    (x >>= f) = .ok b ↔ ∃ a, x = .ok a ∧ f a = .ok b := by
  cases x <;> simp [bind, Except.bind]

theorem map_eq_ok_iff {x : Except ε α} {f : α → β} {b : β} :
    x.map f = .ok b ↔ ∃ a, x = .ok a ∧ f a = b := by
  cases x <;> simp [Except.map]

theorem mapError_eq_ok_iff {x : Except ε α} {f : ε → ε'} {a : α} :
    x.mapError f = .ok a ↔ x = .ok a := by
  cases x with
  | error e => constructor <;> intro h <;> cases h
  | ok b => constructor <;> rintro ⟨⟩ <;> rfl

theorem mapError_bind (x : Except ε α) (f : α → Except ε β) (g : ε → ε') :
    (x >>= f).mapError g = x.mapError g >>= fun a => (f a).mapError g := by
  cases x <;> rfl

/-- What every step of a loop keeps, a loop that succeeds keeps. -/
theorem foldlM_invariant {step : σ → α → Except ε σ} (I : σ → Prop)
    (hstep : ∀ s a s', I s → step s a = .ok s' → I s') {items : List α} {s s' : σ}
    (h : items.foldlM step s = .ok s') (hs : I s) : I s' := by
  induction items generalizing s with
  | nil =>
    cases h
    exact hs
  | cons a rest ih =>
    rw [List.foldlM_cons] at h
    obtain ⟨s₁, h₁, hrest⟩ := bind_eq_ok_iff.mp h
    exact ih hrest (hstep s a s₁ hs h₁)

end ScriptFeatures.Outcome
