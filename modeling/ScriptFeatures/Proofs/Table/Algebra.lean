import ScriptFeatures.Proofs.Table.Reached

/-! The algebra of removing, choosing and adding columns.

* Removing depends on the set of keys only, and removing twice is removing the union.
* Projecting onto distinct keys gives a column for each key: the old one, or zeros
  (`project_columns`). So what a projection finds under a key, and what a second projection makes of
  it, can be read off the old table.
* `takeOut` is a projection that takes the old columns out of a map one by one. It comes to the same
  columns as `project` for any list of keys, also with repetitions (`project_eq_takeOut`). -/

namespace ScriptFeatures.Table.FeatureTable

variable {t u : FeatureTable}

/-! ## Removing -/

theorem drop_congr {A B : List Key} (h : ∀ key, key ∈ A ↔ key ∈ B) : t.drop A = t.drop B := by
  apply eq_of_columns_eq
  · rw [drop_samples, drop_samples]
  · rw [drop_columns, drop_columns]
    apply List.filter_congr
    intro c _
    simp [h]

theorem drop_append (A B : List Key) : t.drop (A ++ B) = (t.drop A).drop B := by
  apply eq_of_columns_eq
  · simp only [drop_samples]
  · simp only [drop_columns, List.filter_filter]
    apply List.filter_congr
    intro c _
    simp [Bool.and_comm]

theorem drop_keys (A : List Key) : (t.drop A).keys = t.keys.filter fun key => !A.contains key := by
  rw [keys, keys, drop_columns, List.filter_map]
  rfl

/-! ## Choosing -/

theorem column?_eq_none_iff {key : Key} : t.column? key = none ↔ key ∉ t.keys := by
  rw [column?_eq_values?, values?, Option.map_eq_none_iff, List.find?_eq_none]
  simp [keys]

theorem columnsFor_of_nodup {used keys : List Key} (h : (used ++ keys).Nodup) :
    t.columnsFor used keys = keys.map fun key => ⟨key, (t.column? key).getD t.zeros⟩ := by
  induction keys generalizing used with
  | nil => rfl
  | cons key keys ih =>
    have hnew : key ∉ used := by
      intro hused
      exact (List.nodup_append.mp h).2.2 key hused key List.mem_cons_self rfl
    have hrest : (key :: used ++ keys).Nodup := List.perm_middle.nodup_iff.mp h
    simp [columnsFor, ih hrest, hnew, column?_eq_values?]

theorem project_columns {keys : List Key} (h : keys.Nodup) :
    (t.project keys).columns = keys.map fun key => ⟨key, (t.column? key).getD t.zeros⟩ :=
  columnsFor_of_nodup h

@[simp] theorem project_keys (keys : List Key) : (t.project keys).keys = keys :=
  columnsFor_keys [] keys

@[simp] theorem project_zeros (keys : List Key) : (t.project keys).zeros = t.zeros := rfl

/-- Behind a projection each of its keys has the old values, or zeros if it had none. -/
theorem column?_project {keys : List Key} (h : keys.Nodup) (key : Key) :
    (t.project keys).column? key =
      if key ∈ keys then some ((t.column? key).getD t.zeros) else none := by
  split
  · rename_i hmem
    rw [column?_eq_values?, values?, Option.map_eq_some_iff]
    refine ⟨⟨key, (t.column? key).getD t.zeros⟩, ?_, rfl⟩
    have hkeys : ((t.project keys).columns.map Column.key).Nodup := by
      rw [← FeatureTable.keys, project_keys]
      exact h
    rw [find?_reverse_key_iff Column.key hkeys, project_columns h]
    exact ⟨List.mem_map_of_mem hmem, rfl⟩
  · rename_i hnot
    rw [column?_eq_none_iff, project_keys]
    exact hnot

/-- A second projection does not see the first if that kept what the second asks for. -/
theorem project_project {K L : List Key} (hK : K.Nodup) (hL : L.Nodup)
    (h : ∀ key ∈ L, key ∈ t.keys → key ∈ K) : (t.project K).project L = t.project L := by
  refine eq_of_columns_eq rfl ?_
  rw [project_columns hL, project_columns hL]
  apply List.map_congr_left
  intro key hkey
  rw [column?_project hK, project_zeros]
  split
  · rfl
  · rename_i hnot
    rw [column?_eq_none_iff.mpr (mt (h key hkey) hnot)]

/-- The columns of a sound table are what it finds under their keys. -/
theorem Sound.columns_eq (h : t.Sound) {columns : List Column} (hsub : columns ⊆ t.columns) :
    (columns.map Column.key).map (fun key => ⟨key, (t.column? key).getD t.zeros⟩) = columns := by
  rw [List.map_map]
  conv_rhs => rw [← List.map_id columns]
  apply List.map_congr_left
  intro c hc
  have hfind : t.column? c.key = some c.values := (h.column?_iff c.key c.values).mpr (hsub hc)
  simp [hfind]

/-- Choosing among the keys of a sound table fills in no zeros. -/
theorem Sound.project_subset (h : t.Sound) {keys : List Key} (hkeys : keys.Nodup)
    (hsub : ∀ key ∈ keys, key ∈ t.keys) : (t.project keys).columns ⊆ t.columns := by
  intro c hc
  rw [project_columns hkeys] at hc
  obtain ⟨key, hkey, rfl⟩ := List.mem_map.mp hc
  obtain ⟨values, hvalues⟩ := Option.ne_none_iff_exists'.mp
    (mt column?_eq_none_iff.mp (not_not.mpr (hsub key hkey)))
  rw [hvalues]
  exact (h.column?_iff key values).mp hvalues

/-- Removing columns is choosing the others. -/
theorem Sound.drop_eq_project (h : t.Sound) (A : List Key) :
    t.drop A = t.project (t.keys.filter fun key => !A.contains key) := by
  refine eq_of_columns_eq (drop_samples A) ?_
  have hsub : (t.drop A).columns ⊆ t.columns := by
    rw [drop_columns]
    exact List.filter_subset_self _
  rw [project_columns (h.nodup.filter _), ← drop_keys, FeatureTable.keys, h.columns_eq hsub]

/-! ## Adding -/

/-- Removing a column that was just added gives the table back. -/
theorem drop_push {key : Key} {values : List Float} (h : t.push key values = .ok u) :
    u.drop [key] = t := by
  obtain ⟨hnew, -, hsamples, hcolumns⟩ := push_eq_ok_iff.mp h
  apply eq_of_columns_eq
  · rw [drop_samples, hsamples]
  · have hold : ∀ c ∈ t.columns, c.key ≠ key := by
      rintro c hc rfl
      exact hnew (List.mem_map_of_mem hc)
    rw [drop_columns, hcolumns, List.filter_append, List.filter_eq_self.mpr (by simpa using hold)]
    simp

/-! ## Taking columns out of a map -/

/-- The values of some columns by key, entered one after the other. -/
def valuesByKey (columns : List Column) : Std.HashMap Key (List Float) :=
  columns.foldl (fun stock c => stock.insert c.key c.values) ∅

/-- A column for each key, taken out of a stock; zeros if the stock has none. -/
def takeOut (zeros : List Float) (stock : Std.HashMap Key (List Float)) : List Key → List Column
  | [] => []
  | key :: keys => ⟨key, stock[key]?.getD zeros⟩ :: takeOut zeros (stock.erase key) keys

theorem getElem?_valuesByKey (columns : List Column) (key : Key) :
    (valuesByKey columns)[key]? = (columns.reverse.find? (·.key == key)).map Column.values := by
  induction columns using List.reverseRecOn with
  | nil => simp [valuesByKey]
  | append_singleton columns c ih =>
    have hconcat : valuesByKey (columns ++ [c]) = (valuesByKey columns).insert c.key c.values := by
      simp [valuesByKey]
    by_cases hkey : c.key = key <;> simp [hconcat, Std.HashMap.getElem?_insert, hkey, ih]

/-- What is left in the stock are the values of the keys that were not used. -/
theorem takeOut_eq {stock : Std.HashMap Key (List Float)} {used : List Key}
    (h : ∀ key, stock[key]? = if key ∈ used then none else t.values? key) (keys : List Key) :
    takeOut t.zeros stock keys = t.columnsFor used keys := by
  induction keys generalizing stock used with
  | nil => rfl
  | cons key keys ih =>
    have hrest : ∀ k, (stock.erase key)[k]? = if k ∈ key :: used then none else t.values? k := by
      intro k
      by_cases hk : key = k
      · simp [hk]
      · simp [Std.HashMap.getElem?_erase, h, hk, Ne.symm hk]
    rw [takeOut, columnsFor, ih hrest, h]
    by_cases hused : key ∈ used <;> simp [hused]

/-- Choosing columns is taking them out of a map of the old ones. -/
theorem project_eq_takeOut (keys : List Key) :
    (t.project keys).columns = takeOut t.zeros (valuesByKey t.columns) keys := by
  have hall : ∀ key, (valuesByKey t.columns)[key]? =
      if key ∈ ([] : List Key) then none else t.values? key := by
    simp [getElem?_valuesByKey, values?]
  exact (takeOut_eq hall keys).symm

/-! ## The laws together -/

/-- The laws of the operations on the columns of a sound table. Equal tables have equal samples,
columns and indices. -/
theorem Sound.column_laws (h : t.Sound) :
    (∀ A B both : List Key, (∀ key, key ∈ both ↔ key ∈ A ∨ key ∈ B) →
      (t.drop A).drop B = t.drop both) ∧
    (∀ A, t.drop A = t.project (t.keys.filter fun key => !A.contains key)) ∧
    (∀ K, K.Nodup → (t.project K).keys = K ∧
      (∀ c ∈ t.columns, c.key ∈ K → (t.project K).column? c.key = some c.values) ∧
      ∀ key ∈ K, key ∉ t.keys → (t.project K).column? key = some (List.replicate t.size 0)) ∧
    (∀ K L, K.Nodup → L.Nodup → (∀ key ∈ L, key ∈ t.keys → key ∈ K) →
      (t.project K).project L = t.project L) ∧
    ∀ key values u, t.push key values = .ok u → u.drop [key] = t := by
  refine ⟨?_, h.drop_eq_project, ?_, ?_, ?_⟩
  · intro A B both hboth
    rw [← drop_append]
    apply drop_congr
    simp [hboth]
  · intro K hK
    refine ⟨project_keys K, ?_, ?_⟩
    · intro c hc hkey
      have hfind : t.column? c.key = some c.values := (h.column?_iff c.key c.values).mpr hc
      rw [column?_project hK, if_pos hkey, hfind, Option.getD_some]
    · intro key hkey hnot
      rw [column?_project hK, if_pos hkey, column?_eq_none_iff.mpr hnot, Option.getD_none, zeros]
  · intro K L hK hL hkept
    exact project_project hK hL hkept
  · intro key values u hpush
    exact drop_push hpush

/-- Two columns of two rows, with a third key that the table does not have. -/
theorem Sound.column_laws_pair :
    let a : Key := ⟨.lexical, "a"⟩
    let b : Key := ⟨.statistical, "a"⟩
    let c : Key := ⟨.lexical, "c"⟩
    let t : FeatureTable :=
      { samples := [.ofScript "eval(a)", .ofScript ""], columns := [⟨a, [1, 2]⟩, ⟨b, [3, 4]⟩] }
    t.Sound ∧ (t.drop [a]).drop [c] = t.drop [c, a] ∧ t.drop [a, c] = t.project [b] ∧
      (t.project [c, b]).keys = [c, b] ∧ (t.project [c, b]).column? b = some [3, 4] ∧
      (t.project [c, b]).column? c = some [0, 0] ∧
      (t.project [c, b]).project [b, c] = t.project [b, c] ∧
      ∃ u, t.push c [5, 6] = .ok u ∧ u.drop [c] = t := by
  intro a b c t
  have hsound : t.Sound := ⟨by decide, by simp [t, size]⟩
  obtain ⟨hdrop, hchoose, hproject, htwice, hpush⟩ := hsound.column_laws
  obtain ⟨hkeys, hold, hzeros⟩ := hproject [c, b] (by decide)
  let u : FeatureTable := { samples := t.samples, columns := t.columns ++ [⟨c, [5, 6]⟩] }
  have hu : t.push c [5, 6] = .ok u := push_eq_ok_iff.mpr ⟨by decide, rfl, rfl, rfl⟩
  refine ⟨hsound, hdrop [a] [c] [c, a] (by simp [or_comm]), hchoose [a, c], hkeys, ?_, ?_, ?_, ?_⟩
  · exact hold ⟨b, [3, 4]⟩ (by simp [t]) (by decide)
  · exact hzeros c (by decide) (by decide)
  · exact htwice [c, b] [b, c] (by decide) (by decide) (by decide)
  · exact ⟨u, hu, hpush c [5, 6] u hu⟩

end ScriptFeatures.Table.FeatureTable
