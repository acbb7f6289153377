import ScriptFeatures.Proofs.Outcome
import ScriptFeatures.Proofs.Pipeline.BatchIndependence

/-! What a classifier gets. The strategies of a bundle compute a table whose columns have distinct
keys, the projection onto the schema picks from them, and the matrix looks each key of the schema up
in the projected table.

`matrix_of_transform` follows a number through these steps: an entry of the matrix is the rounded
number that the strategies computed for the key of its position, if the schema lists that key once.
A key that the schema repeats reads as zero in all of its positions, although it was computed:
`matrix_repeated_length` is a schema that names the length of a script twice. -/

namespace ScriptFeatures

open Config (PipelineConfig)
open Table (Feature FeatureTable Sample)

/-! ## The table before its projection -/

namespace Table

theorem FeatureTable.value?_ofFeatures (features : List Feature) (samples : List Sample)
    (row : Nat) (key : Key) :
    (ofFeatures features samples).value? row key =
      (Feature.last? features key).bind fun f => samples[row]?.map fun s => f.value s.text := by
  rw [value?, column?_ofFeatures]
  cases Feature.last? features key with
  | none => rfl
  | some f => simp [Function.comp_def]

theorem Feature.addAll_nodup {features fs all : List Feature} (h : addAll features fs = .ok all)
    (hnodup : (features.map key).Nodup) : (all.map key).Nodup := by
  induction fs generalizing features with
  | nil =>
    cases h
    exact hnodup
  | cons f fs ih =>
    rw [addAll] at h
    split at h
    · cases h
    · next hnew =>
      refine ih h ?_
      rw [List.map_append, List.nodup_append]
      refine ⟨hnodup, List.nodup_singleton _, fun k hk k' hk' hkk => hnew ?_⟩
      obtain ⟨g, hg, rfl⟩ := List.mem_map.mp hk
      rw [List.mem_singleton.mp hk'] at hkk
      exact List.any_eq_true.mpr ⟨g, hg, beq_iff_eq.mpr hkk⟩

end Table

namespace Pipeline

open Syntactic (Limits)

/-- The table that the strategies of a bundle compute, with the columns of all of them. -/
def extracted (config : PipelineConfig) (bundle : Bundle) (t : FeatureTable) :
    Except PipelineError FeatureTable :=
  bundle.strategies.toList.foldlM (applyStep (.ofConfig config.syntactic) bundle) t

/-- The features of all strategies of a bundle, before its schema selects from them. -/
def Bundle.allFeatures (limits : Limits) (bundle : Bundle) : Except PipelineError (List Feature) :=
  bundle.strategies.toList.foldlM (bundle.addFeatures limits) []

variable (config : PipelineConfig) (bundle : Bundle)

theorem transform_eq_map (t : FeatureTable) :
    transform config bundle t = (extracted config bundle t).map bundle.schema.project := by
  rw [transform, extracted]
  cases bundle.strategies.toList.foldlM (applyStep (.ofConfig config.syntactic) bundle) t <;> rfl

theorem extracted_ofSamples (samples : List Sample) :
    extracted config bundle (.ofSamples samples) =
      (bundle.allFeatures (.ofConfig config.syntactic)).map
        (FeatureTable.ofFeatures · samples) := by
  rw [extracted, FeatureTable.ofSamples_eq_ofFeatures, foldlM_applyStep]
  rfl

theorem Bundle.allFeatures_nodup {limits : Limits} {all : List Feature}
    (h : bundle.allFeatures limits = .ok all) : (all.map Feature.key).Nodup := by
  refine Outcome.foldlM_invariant (fun fs => (fs.map Feature.key).Nodup) ?_ h List.nodup_nil
  intro features s more hnodup hstep
  obtain ⟨fs, -, hadd⟩ := Outcome.bind_eq_ok_iff.mp hstep
  exact Feature.addAll_nodup (Outcome.mapError_eq_ok_iff.mp hadd) hnodup

end Pipeline

namespace Model

open Pipeline (Bundle PipelineError extracted transform)

variable (config : PipelineConfig) (bundle : Bundle)

/-- What a selection gives a row at a key of the schema. -/
theorem row_select (all : List Feature) (samples : List Sample) {i : Nat} (hi : i < samples.length)
    (keys : List Table.Key) :
    Feature.row (Feature.select all [] keys) keys samples[i] = keys.map fun key =>
      (if keys.count key = 1 then
        ((FeatureTable.ofFeatures all samples).value? i key).getD 0 else 0).toFloat32 := by
  refine List.map_congr_left fun key hkey => congrArg Float.toFloat32 ?_
  have hpos : 0 < keys.count key := List.count_pos_iff.mpr hkey
  have hiff : (key ∈ [] ∨ 1 < keys.count key) ↔ ¬ keys.count key = 1 := by
    simp only [List.not_mem_nil, false_or]
    omega
  rw [Feature.last?_select all [] hkey, FeatureTable.value?_ofFeatures, Option.elim_some,
    if_congr hiff rfl rfl]
  by_cases hcount : keys.count key = 1
  · rw [if_neg (not_not.mpr hcount), if_pos hcount]
    cases Feature.last? all key with
    | none => rfl
    | some f => simp [hi]
  · rw [if_pos hcount, if_neg hcount]
    rfl

/-- The matrix of a bundle whose strategies compute the features `all`. -/
theorem features_of_allFeatures {all : List Feature}
    (hall : bundle.allFeatures (.ofConfig config.syntactic) = .ok all) (samples : List Sample) :
    features config bundle (.ofSamples samples) =
      .ok ((List.range samples.length).map fun i => bundle.schema.columns.map fun key =>
        (if bundle.schema.columns.count key = 1 then
          ((FeatureTable.ofFeatures all samples).value? i key).getD 0 else 0).toFloat32) := by
  have hextracted :
      extracted config bundle (.ofSamples samples) = .ok (.ofFeatures all samples) := by
    rw [Pipeline.extracted_ofSamples, hall]
    rfl
  have hproject : bundle.schema.project (.ofFeatures all samples) =
      .ofFeatures (Feature.select all [] bundle.schema.columns) samples :=
    FeatureTable.project_ofFeatures all samples _
  rw [features, Pipeline.transform_eq_map, hextracted, Except.map, hproject, Except.map,
    FeatureTable.matrix_ofFeatures]
  refine congrArg Except.ok (List.ext_getElem (by simp) fun i hi _ => ?_)
  have hsample : i < samples.length := by simpa using hi
  simp only [List.getElem_map, List.getElem_range]
  exact row_select all samples hsample bundle.schema.columns

/-! ## The main result -/

/-- The matrix that the classifier gets for a table without columns. Its entry in a row for a key of
the schema is rounded from the number that the strategies computed in that row for that key, or from
zero if none of them computes it, provided that the schema lists the key once; a key that the schema
repeats gets zero. -/
theorem matrix_of_transform (t : FeatureTable) (ht : t.columns = []) (out : FeatureTable)
    (hout : transform config bundle t = .ok out) :
    ∃ full rows, extracted config bundle t = .ok full ∧ full.keys.Nodup ∧
      features config bundle t = .ok rows ∧
      (∀ classifier, classifyTable config bundle classifier t =
        ((classifier rows).mapError ModelError.prediction).bind fun predictions =>
          if predictions.length = t.size then .ok (predictions.map .ofPrediction)
          else .error (.outputShape t.size predictions.length)) ∧
      rows = (List.range t.size).map fun i => bundle.schema.columns.map fun key =>
        (if bundle.schema.columns.count key = 1 then (full.value? i key).getD 0
          else 0).toFloat32 := by
  obtain ⟨samples, rfl⟩ := FeatureTable.exists_eq_ofSamples ht
  rw [Pipeline.transform_eq_map] at hout
  obtain ⟨full, hfull, -⟩ := Outcome.map_eq_ok_iff.mp hout
  rw [Pipeline.extracted_ofSamples] at hfull
  obtain ⟨all, hall, rfl⟩ := Outcome.map_eq_ok_iff.mp hfull
  have hrows := features_of_allFeatures config bundle hall samples
  refine ⟨.ofFeatures all samples, _, ?_, ?_, hrows, ?_, rfl⟩
  · rw [Pipeline.extracted_ofSamples, hall]
    rfl
  · rw [FeatureTable.ofFeatures_keys]
    exact bundle.allFeatures_nodup hall
  · exact fun classifier => classifyTable_of_features config bundle hrows classifier

/-! ## A repeated key -/

/-- A statistical bundle with a schema that names the length of a script twice, and between the
two a column that is computed and one that is not. -/
def lengthTwice : Bundle :=
  .new default ⟨true, false, false⟩ none none
    ⟨[⟨.statistical, "js_length"⟩, ⟨.statistical, "num_plus"⟩, ⟨.lexical, "x"⟩,
      ⟨.statistical, "js_length"⟩]⟩

theorem allFeatures_lengthTwice (limits : Syntactic.Limits) :
    lengthTwice.allFeatures limits = .ok Statistical.features := by
  have hadd : Feature.addAll [] Statistical.features = .ok Statistical.features :=
    Feature.addAll_of_nodup [] Statistical.features
      (Statistical.features_keys ▸ Statistical.keys_nodup)
  rw [Bundle.allFeatures]
  change (Feature.addAll [] Statistical.features).mapError PipelineError.table >>= pure = _
  rw [hadd]
  rfl

theorem transform_lengthTwice (samples : List Sample) :
    ∃ out, transform {} lengthTwice (.ofSamples samples) = .ok out := by
  rw [Pipeline.transform_eq_map, Pipeline.extracted_ofSamples, allFeatures_lengthTwice]
  exact ⟨_, rfl⟩

/-- The main result for a script of three characters and an empty one. -/
theorem matrix_of_transform_lengthTwice :
    let t : FeatureTable := .ofSamples [.ofScript "a+b", .ofScript ""]
    t.columns = [] ∧ ∃ out full rows, transform {} lengthTwice t = .ok out ∧
      extracted {} lengthTwice t = .ok full ∧ features {} lengthTwice t = .ok rows ∧
      rows = (List.range 2).map fun i => lengthTwice.schema.columns.map fun key =>
        (if lengthTwice.schema.columns.count key = 1 then (full.value? i key).getD 0
          else 0).toFloat32 := by
  intro t
  obtain ⟨out, hout⟩ := transform_lengthTwice [.ofScript "a+b", .ofScript ""]
  obtain ⟨full, rows, hfull, -, hfeatures, -, hrows⟩ :=
    matrix_of_transform {} lengthTwice t rfl out hout
  exact ⟨rfl, out, full, rows, hout, hfull, hfeatures, hrows⟩

/-- The bundle passes the checks of loading and the strategies compute 3 for the length of a script
of three characters, but the classifier gets zero in both of its positions. -/
theorem matrix_repeated_length :
    ∃ full : FeatureTable, lengthTwice.version = Pipeline.bundleVersion ∧
      lengthTwice.schema.fingerprint = lengthTwice.fingerprint ∧
      extracted {} lengthTwice (.ofSamples [.ofScript "a+b"]) = .ok full ∧
      full.value? 0 ⟨.statistical, "js_length"⟩ = some 3 ∧
      features {} lengthTwice (.ofSamples [.ofScript "a+b"]) =
        .ok [[(0 : Float).toFloat32, (1 : Float).toFloat32, (0 : Float).toFloat32,
          (0 : Float).toFloat32]] := by
  refine ⟨.ofFeatures Statistical.features [.ofScript "a+b"], rfl, rfl, ?_, ?_, ?_⟩
  · rw [Pipeline.extracted_ofSamples, allFeatures_lengthTwice]
    rfl
  · rw [FeatureTable.value?_ofFeatures]
    decide +kernel
  · rw [features_of_allFeatures {} lengthTwice (allFeatures_lengthTwice _)]
    have hentries : (lengthTwice.schema.columns.map fun key =>
        if lengthTwice.schema.columns.count key = 1 then
          ((FeatureTable.ofFeatures Statistical.features [.ofScript "a+b"]).value? 0 key).getD 0
        else 0) = [0, 1, 0, 0] := by
      simp only [FeatureTable.value?_ofFeatures]
      decide +kernel
    exact congrArg (fun entries : List Float => Except.ok [entries.map Float.toFloat32]) hentries

end Model

end ScriptFeatures
