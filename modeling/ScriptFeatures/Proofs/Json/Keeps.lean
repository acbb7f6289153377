import ScriptFeatures.Json.Record
import ScriptFeatures.Proofs.Outcome

/-! What the fields of a record leave alone. If a property of records holds of the blank record and
the setters of all fields keep it, it holds of every record that is read, however its text is
written (`record_keeps`). -/

namespace ScriptFeatures.Json

open Outcome

variable {σ : Type} {P : σ → Prop}

/-- Whatever a field is set to, a property of the record is kept. -/
def Field.Keeps (field : Field σ) (P : σ → Prop) : Prop :=
  ∀ cs set rest, field.read cs = .ok (set, rest) → ∀ s, P s → P (set s)

theorem Field.keeps_needed {α : Type} {name : String} {read : Read α} {set : α → σ → σ}
    (h : ∀ a s, P s → P (set a s)) : (Field.needed name read set).Keeps P := by
  intro cs f rest hread
  obtain ⟨⟨a, cs'⟩, -, hf⟩ := bind_eq_ok_iff.mp hread
  cases hf
  exact h a

variable {fields : List (Field σ)}

theorem readField_keeps (hfields : ∀ field ∈ fields, field.Keeps P) {s t : σ × List String}
    {name : String} {cs rest : List Char} (h : readField fields s name cs = .ok (t, rest))
    (hs : P s.1) : P t.1 := by
  rw [readField] at h
  cases hfield : fields.find? (·.name == name) with
  | none =>
    rw [hfield] at h
    obtain ⟨_, -, h⟩ := bind_eq_ok_iff.mp h
    obtain ⟨_, -, h⟩ := bind_eq_ok_iff.mp h
    cases h
    exact hs
  | some field =>
    rw [hfield] at h
    dsimp only at h
    split at h
    · cases h
    · obtain ⟨_, -, h⟩ := bind_eq_ok_iff.mp h
      obtain ⟨⟨set, cs'⟩, hset, h⟩ := bind_eq_ok_iff.mp h
      cases h
      exact hfields field (List.mem_of_find?_eq_some hfield) _ _ _ hset _ hs

theorem readMembers_keeps (hfields : ∀ field ∈ fields, field.Keeps P) {bound : List Char}
    {first : Bool} {s t : σ × List String} {cs rest : List Char}
    (h : readMembers (readField fields) bound first s cs = .ok (t, rest)) (hs : P s.1) :
    P t.1 := by
  induction bound generalizing first s cs with
  | nil => cases h
  | cons b bound ih =>
    obtain ⟨⟨name, cs'⟩, -, h⟩ := bind_eq_ok_iff.mp h
    cases name with
    | none =>
      cases h
      exact hs
    | some name =>
      obtain ⟨⟨s', cs''⟩, hstep, h⟩ := bind_eq_ok_iff.mp h
      exact ih h (readField_keeps hfields hstep hs)

theorem readFields_keeps (hfields : ∀ field ∈ fields, field.Keeps P) {first : Bool} {s t : σ}
    {cs rest : List Char} (h : readFields fields first s cs = .ok (t, rest)) (hs : P s) :
    P t := by
  induction fields generalizing first s cs with
  | nil =>
    rw [readFields] at h
    dsimp only at h
    split at h
    · cases h
    · split at h
      · cases h
        exact hs
      · cases h
  | cons field fields ih =>
    obtain ⟨⟨more, cs'⟩, -, h⟩ := bind_eq_ok_iff.mp h
    dsimp only at h
    split at h
    · obtain ⟨⟨set, cs''⟩, hset, h⟩ := bind_eq_ok_iff.mp h
      refine ih (fun f hf => hfields f (List.mem_cons_of_mem _ hf)) h ?_
      exact hfields field List.mem_cons_self _ _ _ hset _ hs
    · split at h
      · cases h
      · cases h
        exact hs

/-- What holds of the blank record and is kept by all fields holds of the record that is read. -/
theorem record_keeps {blank a : σ} (hfields : ∀ field ∈ fields, field.Keeps P) (hblank : P blank)
    {cs rest : List Char} (h : record fields blank cs = .ok (a, rest)) : P a := by
  rw [record] at h
  split at h
  · cases h
  · split at h
    · obtain ⟨⟨⟨s, seen⟩, cs'⟩, hmembers, h⟩ := bind_eq_ok_iff.mp h
      dsimp only at h
      split at h
      · cases h
        exact readMembers_keeps hfields hmembers hblank
      · cases h
    · split at h
      · exact readFields_keeps hfields h hblank
      · cases h

end ScriptFeatures.Json
