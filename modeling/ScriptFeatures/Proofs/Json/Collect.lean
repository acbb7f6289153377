import Mathlib.Data.List.Induction
import Mathlib.Data.List.Perm.Basic
import ScriptFeatures.Json.Value

/-! Objects whose members are set one after the other. Their members stand in the order of their
names and each name stands once (`increasing_collect`); if the given names are distinct, none is
lost (`collect_perm`). -/

namespace ScriptFeatures.Json.Value

variable {name : String} {v : Value} {members : List (String × Value)}

/-- Members in the order of their names, each name once. -/
def Increasing (members : List (String × Value)) : Prop :=
  members.Pairwise fun m m' => m.1 < m'.1

/-! ## Setting one member -/

theorem mem_of_mem_insert {m : String × Value} (h : m ∈ insert name v members) :
    m = (name, v) ∨ m ∈ members := by
  induction members with
  | nil => exact .inl (List.mem_singleton.mp h)
  | cons m' members ih =>
    rw [insert] at h
    split at h
    · exact List.mem_cons.mp h
    split at h
    · exact (List.mem_cons.mp h).imp_right (List.mem_cons_of_mem m')
    · obtain rfl | h := List.mem_cons.mp h
      · exact .inr List.mem_cons_self
      · exact (ih h).imp_right (List.mem_cons_of_mem m')

theorem lt_of_not_lt_of_ne {a b : String} (hlt : ¬a < b) (hne : a ≠ b) : b < a := by
  by_cases h : b < a
  · exact h
  · exact (hne (String.le_antisymm (String.not_lt.mp h) (String.not_lt.mp hlt))).elim

theorem Increasing.insert (h : Increasing members) (name : String) (v : Value) :
    Increasing (insert name v members) := by
  induction members with
  | nil => exact List.pairwise_singleton _ _
  | cons m members ih =>
    obtain ⟨hfirst, hrest⟩ := List.pairwise_cons.mp h
    rw [Value.insert]
    split
    · next hlt =>
      refine List.pairwise_cons.mpr ⟨List.forall_mem_cons.mpr ⟨hlt, fun m' hm' => ?_⟩, h⟩
      exact String.lt_trans hlt (hfirst m' hm')
    split
    · next heq => exact List.pairwise_cons.mpr ⟨heq ▸ hfirst, hrest⟩
    · next hlt hne =>
      refine List.pairwise_cons.mpr ⟨fun m' hm' => ?_, ih hrest⟩
      obtain rfl | hm' := mem_of_mem_insert hm'
      · exact lt_of_not_lt_of_ne hlt hne
      · exact hfirst m' hm'

theorem insert_perm (h : name ∉ members.map (·.1)) :
    (insert name v members).Perm ((name, v) :: members) := by
  induction members with
  | nil => exact .refl _
  | cons m members ih =>
    rw [List.map_cons, List.mem_cons, not_or] at h
    rw [insert, if_neg h.1]
    split
    · exact .refl _
    · exact ((ih h.2).cons m).trans (.swap (name, v) m members)

/-! ## Setting all members -/

theorem collect_concat (members : List (String × Value)) (m : String × Value) :
    collect (members ++ [m]) = insert m.1 m.2 (collect members) := by
  simp [collect]

theorem increasing_collect (members : List (String × Value)) : Increasing (collect members) := by
  induction members using List.reverseRecOn with
  | nil => exact List.Pairwise.nil
  | append_singleton members m ih =>
    rw [collect_concat]
    exact ih.insert m.1 m.2

theorem collect_perm (h : (members.map (·.1)).Nodup) : (collect members).Perm members := by
  induction members using List.reverseRecOn with
  | nil => exact .refl _
  | append_singleton members m ih =>
    rw [List.map_append, List.map_singleton, List.nodup_append] at h
    have hperm := ih h.1
    have hnew : m.1 ∉ (collect members).map (·.1) := by
      rw [(hperm.map _).mem_iff]
      exact fun hmem => h.2.2 _ hmem _ (List.mem_singleton_self _) rfl
    have hlast : (members ++ [m]).Perm (m :: members) := List.perm_append_singleton m members
    rw [collect_concat]
    exact ((insert_perm hnew).trans (hperm.cons m)).trans hlast.symm

theorem Increasing.nodup (h : Increasing members) : (members.map (·.1)).Nodup := by
  rw [List.Nodup, List.pairwise_map]
  refine h.imp fun {m m'} hlt heq => ?_
  rw [heq] at hlt
  exact String.lt_irrefl _ hlt

/-- The order of the names determines the order of the members. -/
theorem Increasing.eq_of_perm {members' : List (String × Value)} (h : Increasing members)
    (h' : Increasing members') (hperm : members.Perm members') : members = members' :=
  hperm.eq_of_pairwise (fun _ _ _ _ hlt hgt => (String.lt_asymm hlt hgt).elim) h h'

end ScriptFeatures.Json.Value
