import Mathlib.Data.List.Induction
import Mathlib.Data.List.Nodup
import ScriptFeatures.Table.Basic

/-! The index of a table. Entering a column after others overwrites the entry of its key, so going
from a key through the index to a column finds the last column with that key, the one that a search
from the end finds (`bind_indexOf`). With distinct keys nothing is overwritten, and the index is the
inverse of the list of keys (`getElem?_indexOf_iff`). -/

namespace ScriptFeatures.Table

/-- Where keys are distinct, a search from the end by a key finds the one item that has it. -/
theorem find?_reverse_key_iff {α κ : Type} [DecidableEq κ] (key : α → κ) {items : List α}
    (h : (items.map key).Nodup) (k : κ) (x : α) :
    items.reverse.find? (key · == k) = some x ↔ x ∈ items ∧ key x = k := by
  constructor
  · intro hfind
    exact ⟨List.mem_reverse.mp (List.mem_of_find?_eq_some hfind), by
      simpa using List.find?_some hfind⟩
  · rintro ⟨hx, rfl⟩
    cases hfind : items.reverse.find? (key · == key x) with
    | none =>
      rw [List.find?_eq_none] at hfind
      exact absurd (by simp) (hfind x (List.mem_reverse.mpr hx))
    | some y =>
      have hy : y ∈ items := List.mem_reverse.mp (List.mem_of_find?_eq_some hfind)
      have hkey : key y = key x := by simpa using List.find?_some hfind
      rw [List.inj_on_of_nodup_map h hy hx hkey]

/-- Where keys are distinct, changing what stands at the place of a key is a change for that key. -/
theorem modify_map {κ α : Type} [DecidableEq κ] {keys : List κ} (h : keys.Nodup) {key : κ}
    {j : Nat} (hj : keys[j]? = some key) (f : κ → α) (g : α → α) :
    (keys.map f).modify j g = keys.map fun k => if k = key then g (f k) else f k := by
  refine List.ext_getElem? fun i => ?_
  rw [List.getElem?_modify, List.getElem?_map, List.getElem?_map]
  cases hi : keys[i]? with
  | none => simp
  | some k =>
    have hiff : j = i ↔ k = key := by
      constructor
      · rintro rfl
        exact Option.some.inj (hi.symm.trans hj)
      · rintro rfl
        exact (List.getElem?_inj (List.getElem?_eq_some_iff.mp hj).1 h).mp (hj.trans hi.symm)
    simp only [Option.map_some, hiff]
    split <;> rfl

theorem getElem?_indexOf_concat (columns : List Column) (c : Column) (key : Key) :
    (indexOf (columns ++ [c]))[key]? =
      if c.key = key then some columns.length else (indexOf columns)[key]? := by
  simp [indexOf_concat, Std.HashMap.getElem?_insert]

theorem lt_of_getElem?_indexOf {columns : List Column} {key : Key} {i : Nat}
    (h : (indexOf columns)[key]? = some i) : i < columns.length := by
  induction columns using List.reverseRecOn with
  | nil => simp [indexOf] at h
  | append_singleton columns c ih =>
    rw [getElem?_indexOf_concat] at h
    rw [List.length_append, List.length_singleton]
    split at h
    · cases h
      omega
    · exact Nat.lt_succ_of_lt (ih h)

/-- Through the index one gets to the last column with a key. -/
theorem bind_indexOf (columns : List Column) (key : Key) :
    ((indexOf columns)[key]?).bind (columns[·]?) = columns.reverse.find? (·.key == key) := by
  induction columns using List.reverseRecOn with
  | nil => simp [indexOf]
  | append_singleton columns c ih =>
    rw [getElem?_indexOf_concat, List.reverse_append, List.reverse_singleton,
      List.singleton_append, List.find?_cons]
    by_cases hkey : c.key = key
    · simp [hkey]
    · rw [if_neg hkey, beq_false_of_ne hkey, ← ih]
      cases h : (indexOf columns)[key]? with
      | none => rfl
      | some i => exact List.getElem?_append_left (lt_of_getElem?_indexOf h)

theorem contains_indexOf (columns : List Column) (key : Key) :
    (indexOf columns).contains key = columns.any (·.key == key) := by
  induction columns using List.reverseRecOn with
  | nil => simp [indexOf]
  | append_singleton columns c ih =>
    rw [indexOf_concat, Std.HashMap.contains_insert, ih, List.any_append, List.any_cons,
      List.any_nil, Bool.or_false, Bool.or_comm]

/-- The index of columns with distinct keys gives exactly their positions. -/
theorem getElem?_indexOf_iff {columns : List Column} (h : (columns.map Column.key).Nodup)
    (key : Key) (i : Nat) :
    (indexOf columns)[key]? = some i ↔ (columns.map Column.key)[i]? = some key := by
  induction columns using List.reverseRecOn with
  | nil => simp [indexOf]
  | append_singleton columns c ih =>
    rw [List.map_append, List.map_singleton, List.nodup_append] at h
    obtain ⟨hnodup, -, hnew⟩ := h
    rw [getElem?_indexOf_concat, List.map_append, List.map_singleton]
    by_cases hkey : c.key = key
    · -- the new key is none of the old ones, so it stands at the last place only
      subst hkey
      have hold : (columns.map Column.key)[i]? ≠ some c.key := fun hi =>
        hnew c.key (List.mem_of_getElem? hi) c.key (List.mem_singleton_self _) rfl
      rw [if_pos rfl, List.getElem?_append]
      split
      · rename_i hi
        rw [List.length_map] at hi
        simp only [Option.some.injEq, hold, iff_false]
        omega
      · rename_i hi
        rw [List.length_map] at hi ⊢
        simp only [List.getElem?_singleton, Option.some.injEq]
        constructor
        · rintro rfl
          simp
        · intro hlast
          by_contra hne
          rw [if_neg (by omega)] at hlast
          cases hlast
    · rw [if_neg hkey, ih hnodup, List.getElem?_append]
      split
      · rfl
      · rename_i hi
        rw [List.getElem?_eq_none (Nat.not_lt.mp hi), List.getElem?_singleton]
        split <;> simp [hkey]

namespace FeatureTable

variable (t : FeatureTable) (key : Key)

theorem contains_eq_any : t.contains key = t.columns.any (·.key == key) := by
  rw [contains, t.index_eq, contains_indexOf]

theorem contains_iff_mem_keys : t.contains key = true ↔ key ∈ t.keys := by
  rw [contains_eq_any, keys]
  simp

/-- The index finds what a search of the columns finds. -/
theorem column?_eq_values? : t.column? key = t.values? key := by
  rw [column?, position?, t.index_eq, bind_indexOf, values?]

/-- A table is its samples and its columns. -/
theorem eq_of_columns_eq {t u : FeatureTable} (hsamples : t.samples = u.samples)
    (hcolumns : t.columns = u.columns) : t = u := by
  obtain ⟨samples, columns, index, hindex⟩ := t
  obtain ⟨samples', columns', index', hindex'⟩ := u
  subst hsamples hcolumns hindex hindex'
  rfl

@[simp] theorem ofSamples_samples (samples : List Sample) : (ofSamples samples).samples = samples :=
  rfl

theorem exists_eq_ofSamples {t : FeatureTable} (h : t.columns = []) :
    ∃ samples, t = ofSamples samples :=
  ⟨t.samples, eq_of_columns_eq rfl h⟩

end FeatureTable

end ScriptFeatures.Table
