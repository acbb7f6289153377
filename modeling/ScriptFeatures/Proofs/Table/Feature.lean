import ScriptFeatures.Proofs.Outcome
import ScriptFeatures.Proofs.Table.Index

/-! Tables of features. A `Feature` is a column key with the number that each text gets, so it says
what a column holds for any batch of samples.

* `FeatureTable.ofFeatures`: the table of some features for some samples, whose rows are computed
  one by one.
* `Feature.addAll` and `Feature.select` are adding and projecting columns on the level of features.
  `pushAll_ofFeatures` and `project_ofFeatures` say that a table of features stays one: which
  columns can be added, and what a projection finds, does not depend on the samples. -/

namespace ScriptFeatures.Table

/-- A column key with the number that each text gets. -/
structure Feature where
  key : Key
  value : String → Float

namespace Feature

/-- The column of a feature for some texts. -/
def column (f : Feature) (texts : List String) : Column :=
  ⟨f.key, texts.map f.value⟩

/-- The feature that is zero for every text. -/
def zero (key : Key) : Feature :=
  ⟨key, fun _ => 0⟩

/-- Adds features one after the other, each of which has to have a new key. -/
def addAll (features : List Feature) : List Feature → Except TableError (List Feature)
  | [] => .ok features
  | f :: fs =>
    if features.any (·.key == f.key) then .error (.duplicateColumn f.key)
    else addAll (features ++ [f]) fs

/-- The last of some features with a key. -/
def last? (features : List Feature) (key : Key) : Option Feature :=
  features.reverse.find? (·.key == key)

/-- One feature for each of some keys: the last one with that key, or zero if there is none or the
key is one of those `used` before. -/
def select (features : List Feature) (used : List Key) : List Key → List Feature
  | [] => []
  | key :: keys =>
    (if used.contains key then zero key else (last? features key).getD (zero key)) ::
      select features (key :: used) keys

end Feature

namespace FeatureTable

/-- The table of some features for some samples. -/
def ofFeatures (features : List Feature) (samples : List Sample) : FeatureTable :=
  { samples, columns := features.map (·.column (samples.map Sample.text)) }

variable (features : List Feature) (samples : List Sample)

@[simp] theorem ofFeatures_samples : (ofFeatures features samples).samples = samples := rfl

@[simp] theorem ofFeatures_size : (ofFeatures features samples).size = samples.length := rfl

@[simp] theorem ofFeatures_texts :
    (ofFeatures features samples).texts = samples.map Sample.text := rfl

@[simp] theorem ofFeatures_keys :
    (ofFeatures features samples).keys = features.map Feature.key := by
  simp [keys, ofFeatures, Feature.column, Function.comp_def]

theorem ofSamples_eq_ofFeatures : ofSamples samples = ofFeatures [] samples := rfl

/-! ## Adding columns -/

theorem pushAll_samples {t t' : FeatureTable} {columns : List Column}
    (h : t.pushAll columns = .ok t') : t'.samples = t.samples := by
  induction columns generalizing t with
  | nil =>
    cases h
    rfl
  | cons c cs ih =>
    obtain ⟨u, hu, hrest⟩ := Outcome.bind_eq_ok_iff.mp h
    have hsamples : u.samples = t.samples := by
      rw [push] at hu
      split_ifs at hu
      cases hu
      rfl
    exact (ih hrest).trans hsamples

theorem contains_ofFeatures (key : Key) :
    (ofFeatures features samples).contains key = features.any (·.key == key) := by
  rw [contains_eq_any]
  simp [ofFeatures, Feature.column, Function.comp_def]

theorem push_ofFeatures (f : Feature) :
    (ofFeatures features samples).push f.key ((samples.map Sample.text).map f.value) =
      if features.any (·.key == f.key) then .error (.duplicateColumn f.key)
      else .ok (ofFeatures (features ++ [f]) samples) := by
  rw [push, contains_ofFeatures]
  split
  · rfl
  · rw [if_neg (by simp)]
    refine congrArg Except.ok (eq_of_columns_eq rfl ?_)
    simp [ofFeatures, Feature.column, Function.comp_def]

theorem pushAll_ofFeatures (fs : List Feature) :
    (ofFeatures features samples).pushAll (fs.map (·.column (samples.map Sample.text))) =
      (Feature.addAll features fs).map (ofFeatures · samples) := by
  induction fs generalizing features with
  | nil => rfl
  | cons f fs ih =>
    have hpush := push_ofFeatures features samples f
    rw [List.map_cons, pushAll, Feature.addAll]
    simp only [Feature.column] at ih ⊢
    rw [hpush]
    split
    · rfl
    · exact ih (features ++ [f])

/-! ## Projections -/

theorem column?_ofFeatures (key : Key) :
    (ofFeatures features samples).column? key =
      (Feature.last? features key).map fun f => (samples.map Sample.text).map f.value := by
  rw [column?_eq_values?, values?, ofFeatures, ← List.map_reverse, List.find?_map,
    Option.map_map]
  rfl

theorem columnsFor_ofFeatures (used keys : List Key) :
    (ofFeatures features samples).columnsFor used keys =
      (Feature.select features used keys).map (·.column (samples.map Sample.text)) := by
  have hzeros : (ofFeatures features samples).zeros =
      (samples.map Sample.text).map fun _ => (0 : Float) := by
    rw [List.map_const', List.length_map]
    rfl
  induction keys generalizing used with
  | nil => rfl
  | cons key keys ih =>
    rw [columnsFor, Feature.select, List.map_cons, ih, ← column?_eq_values?, column?_ofFeatures,
      hzeros]
    congr 1
    split
    · rfl
    · cases h : Feature.last? features key with
      | none => rfl
      | some f =>
        have hkey : f.key = key := by simpa using List.find?_some h
        rw [← hkey]
        rfl

/-- Projecting a table of features selects features, whatever the samples are. -/
theorem project_ofFeatures (keys : List Key) :
    (ofFeatures features samples).project keys =
      ofFeatures (Feature.select features [] keys) samples :=
  eq_of_columns_eq rfl (columnsFor_ofFeatures features samples [] keys)

end FeatureTable

/-! ## Selected features -/

namespace Feature

theorem getD_last?_key (features : List Feature) (key : Key) :
    ((last? features key).getD (zero key)).key = key := by
  cases h : last? features key with
  | none => rfl
  | some f => simpa using List.find?_some h

theorem selected_key (features : List Feature) (used : List Key) (key : Key) :
    (if used.contains key then zero key else (last? features key).getD (zero key)).key = key := by
  split
  · rfl
  · exact getD_last?_key features key

/-- A selection has one feature for each key. -/
theorem select_keys (features : List Feature) (used keys : List Key) :
    (select features used keys).map key = keys := by
  induction keys generalizing used with
  | nil => rfl
  | cons k keys ih => rw [select, List.map_cons, ih, selected_key]

theorem last?_cons (f : Feature) (features : List Feature) (key : Key) :
    last? (f :: features) key =
      (last? features key).or (if f.key = key then some f else none) := by
  rw [last?, last?, List.reverse_cons, List.find?_append]
  by_cases h : f.key = key <;> simp [h]

theorem last?_select_of_notMem (features : List Feature) (used : List Key) {keys : List Key}
    {key : Key} (h : key ∉ keys) : last? (select features used keys) key = none := by
  induction keys generalizing used with
  | nil => rfl
  | cons k keys ih =>
    obtain ⟨hne, hmem⟩ := not_or.mp (mt List.mem_cons.mpr h)
    rw [select, last?_cons, ih _ hmem, selected_key, if_neg (Ne.symm hne), Option.or_none]

/-- What a selection has for a key that it lists: the last feature with that key if the key is
listed once and was not used before. A repeated key leaves zeros, because only its first use takes
the feature and the last of its columns counts. -/
theorem last?_select (features : List Feature) (used : List Key) {keys : List Key} {key : Key}
    (h : key ∈ keys) :
    last? (select features used keys) key =
      some (if key ∈ used ∨ 1 < keys.count key then zero key
        else (last? features key).getD (zero key)) := by
  induction keys generalizing used with
  | nil => exact nomatch h
  | cons k keys ih =>
    rw [select, last?_cons, selected_key]
    by_cases hmem : key ∈ keys
    · -- a later use decides
      have hpos : 0 < keys.count key := List.count_pos_iff.mpr hmem
      have hiff : (key ∈ k :: used ∨ 1 < keys.count key) ↔
          (key ∈ used ∨ 1 < (k :: keys).count key) := by
        rw [List.mem_cons, List.count_cons]
        by_cases hk : key = k
        · subst hk
          simp [hpos]
        · simp [hk, Ne.symm hk]
      rw [ih (k :: used) hmem, Option.some_or, if_congr hiff rfl rfl]
    · have hk : k = key := ((List.mem_cons.mp h).resolve_right hmem).symm
      subst hk
      have hcount : ¬ 1 < (k :: keys).count k := by
        rw [List.count_cons_self, List.count_eq_zero.mpr hmem]
        omega
      have hiff : used.contains k = true ↔ k ∈ used ∨ 1 < (k :: keys).count k := by
        rw [List.contains_iff_mem, or_iff_left hcount]
      rw [last?_select_of_notMem features _ hmem, if_pos rfl, Option.none_or,
        if_congr hiff rfl rfl]

end Feature

/-! ## Distinct keys -/

namespace Feature

/-- Features with distinct keys can be added. -/
theorem addAll_of_nodup (features fs : List Feature)
    (h : ((features ++ fs).map key).Nodup) : addAll features fs = .ok (features ++ fs) := by
  induction fs generalizing features with
  | nil => rw [addAll, List.append_nil]
  | cons f fs ih =>
    have hnew : features.any (·.key == f.key) = false := by
      rw [List.map_append, List.map_cons, List.nodup_append] at h
      rw [List.any_eq_false]
      intro g hg he
      exact h.2.2 g.key (List.mem_map_of_mem hg) f.key List.mem_cons_self (by simpa using he)
    rw [addAll, hnew, if_neg Bool.false_ne_true, ih (features ++ [f]) (by simpa using h)]
    simp

theorem last?_eq_some_of_nodup {features : List Feature} (h : (features.map key).Nodup)
    {f : Feature} (hf : f ∈ features) : last? features f.key = some f :=
  (find?_reverse_key_iff key h f.key f).mpr ⟨hf, rfl⟩

/-- Selecting the keys of features that differ in their keys gives the features back. -/
theorem select_self (features fs : List Feature) (used : List Key)
    (h : (features.map key).Nodup) (hsub : ∀ f ∈ fs, f ∈ features)
    (hused : (used ++ fs.map key).Nodup) : select features used (fs.map key) = fs := by
  induction fs generalizing used with
  | nil => rfl
  | cons f fs ih =>
    rw [List.map_cons] at hused
    have hnew : used.contains f.key = false := by
      simpa using fun hu => (List.nodup_append.mp hused).2.2 f.key hu f.key List.mem_cons_self rfl
    rw [List.map_cons, select, hnew, last?_eq_some_of_nodup h (hsub f List.mem_cons_self),
      ih (f.key :: used) (fun g hg => hsub g (List.mem_cons_of_mem _ hg))
        (List.perm_middle.nodup_iff.mp hused)]
    rfl

end Feature

end ScriptFeatures.Table
