import ScriptFeatures.Proofs.Json.Collect
import ScriptFeatures.Proofs.Table.Reached

/-! Rows as JSON objects. The text of a key has a colon and the names of the members of a sample
have none, so no column takes the place of a member of a sample; and keys are determined by their
texts, so no column takes the place of another. -/

namespace ScriptFeatures.Table

open Json (Value)

/-! ## Names -/

theorem Key.colon_mem_text (k : Key) : ':' ∈ k.text.toList := by
  rw [k.toList_text]
  exact List.mem_append_right _ List.mem_cons_self

namespace Sample

/-- The names of the fields of a sample. -/
def names : List String :=
  fields.map (·.name)

theorem text_notMem_names (k : Key) : k.text ∉ names := by
  have hnames : ∀ name ∈ names, ':' ∉ name.toList := by decide
  exact fun hmem => hnames _ hmem k.colon_mem_text

/-- The members of a sample give some of its fields, in their order. -/
theorem names_sublist (s : Sample) : (s.members.map (·.1)).Sublist names := by
  have hoptional {α : Type} (o : Option α) (name : String) (v : α → Value) :
      ((o.toList.map fun a => (name, v a)).map (·.1)).Sublist [name] := by
    cases o <;> simp
  rw [members, List.map_append, List.map_append, List.map_cons]
  exact (((hoptional _ _ _).cons_cons "js").append (hoptional _ _ _)).append (hoptional _ _ _)

theorem name_mem (s : Sample) {m : String × Value} (h : m ∈ s.members) : m.1 ∈ names :=
  s.names_sublist.subset (List.mem_map_of_mem h)

theorem text_notMem (s : Sample) (k : Key) : k.text ∉ s.members.map (·.1) :=
  fun hmem => text_notMem_names k (s.names_sublist.subset hmem)

theorem increasing_members (s : Sample) : Value.Increasing s.members := by
  have hnames : names.Pairwise (· < ·) := by decide
  exact List.pairwise_map.mp (hnames.sublist s.names_sublist)

end Sample

namespace FeatureTable

variable {t : FeatureTable}

theorem rowMembers_names (t : FeatureTable) (row : Nat) (s : Sample) :
    (t.rowMembers row s).map (·.1) = s.members.map (·.1) ++ t.keys.map Key.text := by
  simp [rowMembers, keys]

/-- The members of a row have distinct names. -/
theorem Sound.nodup_rowMembers (h : t.Sound) (row : Nat) (s : Sample) :
    ((t.rowMembers row s).map (·.1)).Nodup := by
  rw [rowMembers_names, List.nodup_append]
  refine ⟨s.increasing_members.nodup, h.nodup.map fun _ _ => Key.text_injective, ?_⟩
  intro name hname name' hname' heq
  obtain ⟨k, -, rfl⟩ := List.mem_map.mp hname'
  exact s.text_notMem k (heq ▸ hname)

/-- The object of a row has the members of the row and no others. -/
theorem Sound.collect_rowMembers (h : t.Sound) (row : Nat) (s : Sample) :
    (Value.collect (t.rowMembers row s)).Perm (t.rowMembers row s) :=
  Value.collect_perm (h.nodup_rowMembers row s)

theorem Sound.mem_rowMembers_iff (h : t.Sound) {row : Nat} (hrow : row < t.size) (s : Sample)
    (name : String) (v : Value) :
    (name, v) ∈ t.rowMembers row s ↔
      (name, v) ∈ s.members ∨ ∃ c ∈ t.columns, ∃ x, c.values[row]? = some x ∧
        name = c.key.text ∧ v = if x.isFinite then .number (.real x) else .null := by
  rw [rowMembers, List.mem_append, List.mem_map]
  refine or_congr_right (exists_congr fun c => and_congr_right fun hc => ?_)
  have hlt : row < c.values.length := by
    rw [h.full c hc]
    exact hrow
  rw [List.getD_eq_getElem?_getD, List.getElem?_eq_getElem hlt, Option.getD_some, Prod.mk.injEq]
  constructor
  · rintro ⟨rfl, rfl⟩
    exact ⟨_, rfl, rfl, rfl⟩
  · rintro ⟨x, ⟨⟩, rfl, rfl⟩
    exact ⟨rfl, rfl⟩

/-- Each row of a sound table is an object whose members are those of its sample and, under the text
of its key, the value of each column in this row, or `null` if it is no number. No name stands
twice: the texts of different keys differ, and none is the name of a member of a sample. Behind the
last row there is none. -/
theorem Sound.row?_entries (h : t.Sound) :
    (∀ row < t.size, ∃ s members, t.samples[row]? = some s ∧
      t.row? row = some (.object members) ∧ (members.map (·.1)).Nodup ∧
      ∀ name v, (name, v) ∈ members ↔
        (name, v) ∈ s.members ∨ ∃ c ∈ t.columns, ∃ x, c.values[row]? = some x ∧
          name = c.key.text ∧ v = if x.isFinite then .number (.real x) else .null) ∧
    (∀ row, t.size ≤ row → t.row? row = none) ∧
    (∀ k l : Key, k.text = l.text → k = l) ∧
    ∀ (s : Sample) (k : Key), k.text ∉ s.members.map (·.1) := by
  refine ⟨fun row hrow => ?_, fun row hrow => ?_, fun _ _ => Key.text_injective,
    Sample.text_notMem⟩
  · have hsample : t.samples[row]? = some (t.samples[row]) := List.getElem?_eq_getElem hrow
    refine ⟨_, Value.collect (t.rowMembers row t.samples[row]), hsample, ?_, ?_, fun name v => ?_⟩
    · rw [row?, hsample]
      rfl
    · exact (Value.increasing_collect _).nodup
    · rw [(h.collect_rowMembers row _).mem_iff]
      exact h.mem_rowMembers_iff hrow _ name v
  · rw [row?, List.getElem?_eq_none hrow]
    rfl

/-- A table whose only script has a line break, and whose columns have the names of members of its
sample. -/
def crossed : FeatureTable where
  samples := [⟨some "\"\n", none, some true, none⟩]
  columns :=
    [⟨⟨.lexical, "js"⟩, [0.5]⟩, ⟨⟨.lexical, ""⟩, [0 / 0]⟩, ⟨⟨.statistical, "js:\r\n"⟩, [1 / 0]⟩]

theorem crossed_sound : crossed.Sound where
  nodup := by decide
  full := by
    intro c hc
    simp only [crossed, List.mem_cons, List.not_mem_nil, or_false] at hc
    obtain rfl | rfl | rfl := hc <;> rfl

theorem crossed_row?_entries :
    crossed.Sound ∧ 0 < crossed.size ∧ (∃ members, crossed.row? 0 = some (.object members) ∧
      (members.map (·.1)).Nodup ∧ ("js", .text "\"\n") ∈ members ∧
      ("lexical:js", .number (.real 0.5)) ∈ members ∧ ("lexical:", .null) ∈ members) ∧
      crossed.row? 1 = none := by
  have hsize : 0 < crossed.size := by decide
  obtain ⟨hrow, hpast, -, -⟩ := crossed_sound.row?_entries
  obtain ⟨s, members, hs, hmembers, hnodup, hiff⟩ := hrow 0 hsize
  cases hs
  refine ⟨crossed_sound, hsize, ⟨members, hmembers, hnodup, ?_, ?_, ?_⟩, hpast 1 (by decide)⟩
  · exact (hiff _ _).mpr (.inl (List.mem_cons_self))
  · refine (hiff _ _).mpr (.inr ⟨_, List.mem_cons_self, 0.5, rfl, rfl, ?_⟩)
    rw [if_pos (by decide +kernel)]
  · refine (hiff _ _).mpr (.inr ⟨_, List.mem_cons_of_mem _ List.mem_cons_self, 0 / 0, rfl, rfl, ?_⟩)
    rw [if_neg (by decide +kernel)]

end FeatureTable

end ScriptFeatures.Table
