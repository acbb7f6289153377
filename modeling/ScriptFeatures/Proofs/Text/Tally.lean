import Mathlib.Algebra.Ring.Nat
import ScriptFeatures.Text.Tally

/-! Tallies count what they are given and list their items in increasing order, so no item is listed
twice, and the order in which the items came is lost. The inductions follow `tallyOnto`: the runs
counted so far decrease, and nothing still to be read lies below the last of them. -/

namespace ScriptFeatures.Text

/-! ## Counting -/

section

variable {α : Type} [DecidableEq α]

/-- What runs have counted of an item. -/
def tallied (counted : List (α × Nat)) (a : α) : Nat :=
  ((counted.filter (·.1 = a)).map (·.2)).sum

theorem tallied_cons (b : α) (n : Nat) (counted : List (α × Nat)) (a : α) :
    tallied ((b, n) :: counted) a = (if b = a then n else 0) + tallied counted a := by
  by_cases h : b = a <;> simp [tallied, h]

theorem tallied_tallyOnto (counted : List (α × Nat)) (l : List α) (a : α) :
    tallied (tallyOnto counted l) a = tallied counted a + l.count a := by
  induction l generalizing counted with
  | nil =>
    rw [tallyOnto, tallied, tallied, List.filter_reverse, List.map_reverse,
      List.sum_reverse]
    rfl
  | cons b rest ih =>
    cases counted with
    | nil =>
      rw [tallyOnto, ih, tallied_cons, List.count_cons]
      simp only [beq_iff_eq]
      omega
    | cons run before =>
      obtain ⟨c, n⟩ := run
      rw [tallyOnto]
      split
      · next e =>
        subst e
        rw [ih, tallied_cons, tallied_cons, List.count_cons]
        simp only [beq_iff_eq]
        split <;> omega
      · rw [ih, tallied_cons, List.count_cons]
        simp only [beq_iff_eq]
        omega

theorem tallied_eq_zero {counted : List (α × Nat)} {a : α} (h : a ∉ counted.map (·.1)) :
    tallied counted a = 0 := by
  have hfilter : counted.filter (·.1 = a) = [] := by
    refine List.filter_eq_nil_iff.mpr fun p hp heq => h ?_
    exact List.mem_map.mpr ⟨p, hp, of_decide_eq_true heq⟩
  rw [tallied, hfilter]
  rfl

theorem tallied_of_mem {counted : List (α × Nat)} (hnodup : (counted.map (·.1)).Nodup)
    {p : α × Nat} (hp : p ∈ counted) : tallied counted p.1 = p.2 := by
  induction counted with
  | nil => exact nomatch hp
  | cons q counted ih =>
    rw [List.map_cons, List.nodup_cons] at hnodup
    obtain rfl | hp := List.mem_cons.mp hp
    · rw [tallied_cons, if_pos rfl, tallied_eq_zero hnodup.1, Nat.add_zero]
    · have hne : q.1 ≠ p.1 := fun heq => hnodup.1 (heq ▸ List.mem_map_of_mem hp)
      rw [tallied_cons, if_neg hne, ih hnodup.2 hp, Nat.zero_add]

theorem mem_tallyOnto (counted : List (α × Nat)) (l : List α) (a : α) :
    a ∈ (tallyOnto counted l).map (·.1) ↔ a ∈ counted.map (·.1) ∨ a ∈ l := by
  induction l generalizing counted with
  | nil => simp [tallyOnto]
  | cons b rest ih =>
    cases counted with
    | nil => simp [tallyOnto, ih]
    | cons run before =>
      rw [tallyOnto]
      split
      · next e => simp [ih, e, or_assoc, or_left_comm]
      · simp [ih, or_assoc, or_left_comm]

theorem mem_distinct [LE α] [DecidableLE α] {items : List α} {a : α} :
    a ∈ distinct items ↔ a ∈ items := by
  rw [distinct, tally, mem_tallyOnto]
  simp

end

/-! ## Order -/

variable {α : Type} [LE α] [Std.IsLinearOrder α]

/-- `a` comes before `b` and differs from it. -/
def Before (a b : α) : Prop :=
  a ≤ b ∧ a ≠ b

theorem Before.trans {a b c : α} (h : Before a b) (h' : Before b c) : Before a c := by
  refine ⟨Std.le_trans h.1 h'.1, ?_⟩
  rintro rfl
  exact h.2 (Std.le_antisymm h.1 h'.1)

theorem pairwise_mergeSort_le [DecidableLE α] (items : List α) :
    (items.mergeSort fun a b => decide (a ≤ b)).Pairwise (· ≤ ·) := by
  have htrans : ∀ a b c : α, decide (a ≤ b) → decide (b ≤ c) → decide (a ≤ c) := by
    simpa using fun a b c : α => Std.le_trans
  have htotal : ∀ a b : α, decide (a ≤ b) || decide (b ≤ a) := by
    simpa using fun a b : α => Std.le_total
  exact (List.pairwise_mergeSort htrans htotal items).imp of_decide_eq_true

variable [DecidableEq α]

theorem tallyOnto_increasing (counted : List (α × Nat)) (l : List α)
    (hc : (counted.map (·.1)).Pairwise fun a b => Before b a)
    (hl : l.Pairwise (· ≤ ·))
    (hlast : ∀ p ∈ counted, ∀ a ∈ l, p.1 ≤ a) :
    ((tallyOnto counted l).map (·.1)).Pairwise Before := by
  induction l generalizing counted with
  | nil =>
    rw [tallyOnto, List.map_reverse, List.pairwise_reverse]
    exact hc
  | cons a rest ih =>
    obtain ⟨ha, hrest⟩ := List.pairwise_cons.mp hl
    cases counted with
    | nil =>
      refine ih [(a, 1)] (List.pairwise_singleton _ _) hrest fun p hp b hb => ?_
      rw [List.mem_singleton.mp hp]
      exact ha b hb
    | cons run before =>
      obtain ⟨b, n⟩ := run
      have hrun : b ≤ a := hlast (b, n) List.mem_cons_self a List.mem_cons_self
      rw [List.map_cons, List.pairwise_cons] at hc
      rw [tallyOnto]
      split
      · next e =>
        subst e
        refine ih ((a, n + 1) :: before) (List.pairwise_cons.mpr hc) hrest fun p hp c hcm => ?_
        obtain rfl | hp := List.mem_cons.mp hp
        · exact ha c hcm
        · exact hlast p (List.mem_cons_of_mem _ hp) c (List.mem_cons_of_mem _ hcm)
      · next e =>
        have hba : Before b a := ⟨hrun, fun h => e h.symm⟩
        refine ih ((a, 1) :: (b, n) :: before) ?_ hrest fun p hp c hcm => ?_
        · refine List.pairwise_cons.mpr ⟨fun c hcm => ?_, List.pairwise_cons.mpr hc⟩
          obtain rfl | hcm := List.mem_cons.mp hcm
          · exact hba
          · exact (hc.1 c hcm).trans hba
        · obtain rfl | hp := List.mem_cons.mp hp
          · exact ha c hcm
          · exact hlast p hp c (List.mem_cons_of_mem _ hcm)

variable [DecidableLE α]

/-- The items of a tally increase. -/
theorem tally_increasing (items : List α) : ((tally items).map (·.1)).Pairwise Before :=
  tallyOnto_increasing [] _ List.Pairwise.nil (pairwise_mergeSort_le items) fun _ hp => nomatch hp

/-- A tally does not depend on the order of the items. -/
theorem tally_perm {items items' : List α} (h : items.Perm items') :
    tally items = tally items' := by
  have hsort : items.mergeSort (fun a b => decide (a ≤ b)) =
      items'.mergeSort fun a b => decide (a ≤ b) := by
    refine List.Perm.eq_of_pairwise (fun a b _ _ => Std.le_antisymm)
      (pairwise_mergeSort_le items) (pairwise_mergeSort_le items') ?_
    exact (List.mergeSort_perm items _).trans (h.trans (List.mergeSort_perm items' _).symm)
  rw [tally, tally, hsort]

theorem distinct_increasing (items : List α) : (distinct items).Pairwise Before :=
  tally_increasing items

/-- No item is listed twice in a tally. -/
theorem tally_nodup (items : List α) : ((tally items).map (·.1)).Nodup :=
  (tally_increasing items).imp And.right

/-- A tally gives each item its number of occurrences. -/
theorem tally_count {items : List α} {p : α × Nat} (hp : p ∈ tally items) :
    p.2 = items.count p.1 := by
  have hsort := (List.mergeSort_perm items fun a b => decide (a ≤ b)).count_eq p.1
  have htally := tallied_tallyOnto [] (items.mergeSort fun a b => decide (a ≤ b)) p.1
  rw [hsort] at htally
  have hmem := tallied_of_mem (tally_nodup items) hp
  rw [← hmem]
  exact htally.trans (Nat.zero_add _)

end ScriptFeatures.Text
