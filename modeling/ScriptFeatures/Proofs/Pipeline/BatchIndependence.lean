import ScriptFeatures.Model.Classify
import ScriptFeatures.Proofs.Pipeline.Features

/-! A batch is transformed and classified row by row. What a bundle computes, and why it fails, does
not depend on the samples (`transform_ofSamples`), so a row of a batch is the row of the batch that
holds its sample alone, and a classifier that looks at one row at a time gives every sample the
verdict it gets by itself. -/

namespace ScriptFeatures

open Table (Feature FeatureTable Sample)

namespace Table

/-- The value in a row of the column at a position. -/
def FeatureTable.cell? (t : FeatureTable) (row position : Nat) : Option Float := do
  let c ← t.columns[position]?
  c.values[row]?

theorem FeatureTable.cell?_ofFeatures (features : List Feature) (samples : List Sample)
    (row position : Nat) :
    (ofFeatures features samples).cell? row position =
      features[position]?.bind fun f => samples[row]?.map fun s => f.value s.text := by
  rw [cell?, ofFeatures, List.getElem?_map]
  cases features[position]? with
  | none => rfl
  | some f => simp [Feature.column, Function.comp_def]

/-- What the matrix of some features holds for one sample. -/
def Feature.row (features : List Feature) (keys : List Key) (s : Sample) : List Float32 :=
  keys.map fun key => ((last? features key).elim 0 fun f => f.value s.text).toFloat32

theorem FeatureTable.matrix_ofFeatures (features : List Feature) (samples : List Sample)
    (keys : List Key) :
    (ofFeatures features samples).matrix keys = samples.map (Feature.row features keys) := by
  refine List.ext_getElem (by simp [matrix]) fun i hi hi' => ?_
  have hs : i < samples.length := by simpa [matrix] using hi
  simp only [matrix, List.getElem_map, List.getElem_range, List.map_map, Feature.row]
  refine List.map_congr_left fun key _ => ?_
  rw [Function.comp_apply, column?_ofFeatures]
  cases Feature.last? features key with
  | none => rfl
  | some f => simp [hs]

end Table

namespace Pipeline

open Config (PipelineConfig)
open Syntactic (Limits)

theorem Bundle.features_keys {limits : Limits} {bundle : Bundle} {features : List Feature}
    (h : bundle.features limits = .ok features) :
    features.map Feature.key = bundle.schema.columns := by
  rw [Bundle.features] at h
  cases hall : bundle.strategies.toList.foldlM (bundle.addFeatures limits) [] with
  | error e =>
    rw [hall] at h
    cases h
  | ok all =>
    rw [hall] at h
    cases h
    exact Feature.select_keys all [] _

end Pipeline

namespace Model

open Config (PipelineConfig)
open Pipeline (Bundle PipelineError)

/-! ## Classifiers that look at one row at a time -/

/-- What a classifier of single rows makes of one row. -/
def verdictOn (predict : List Float32 → Except String Float32) (row : List Float32) :
    Except ModelError Verdict :=
  ((predict row).mapError .prediction).map .ofPrediction

theorem length_of_mapM {α β ε : Type} {f : α → Except ε β} {xs : List α} {ys : List β}
    (h : xs.mapM f = .ok ys) : ys.length = xs.length := by
  induction xs generalizing ys with
  | nil => cases h; rfl
  | cons x xs ih =>
    rw [List.mapM_cons] at h
    cases hx : f x with
    | error e => rw [hx] at h; exact nomatch h
    | ok y =>
      cases hxs : xs.mapM f with
      | error e => rw [hx, hxs] at h; exact nomatch h
      | ok rest =>
        rw [hx, hxs] at h
        cases h
        rw [List.length_cons, List.length_cons, ih hxs]

theorem mapM_verdictOn (predict : List Float32 → Except String Float32)
    (rows : List (List Float32)) :
    ((rows.mapM predict).mapError ModelError.prediction).map (·.map Verdict.ofPrediction) =
      rows.mapM (verdictOn predict) := by
  induction rows with
  | nil => rfl
  | cons row rows ih =>
    rw [List.mapM_cons, List.mapM_cons, ← ih, verdictOn]
    cases predict row with
    | error e => rfl
    | ok x => cases rows.mapM predict <;> rfl

variable (config : PipelineConfig) (bundle : Bundle)

theorem features_ofSamples (samples : List Sample) :
    features config bundle (.ofSamples samples) =
      (bundle.features (.ofConfig config.syntactic)).map fun fs =>
        samples.map (Feature.row fs bundle.schema.columns) := by
  rw [features, Pipeline.transform_ofSamples]
  cases bundle.features (.ofConfig config.syntactic) with
  | error e => rfl
  | ok fs => exact congrArg Except.ok (FeatureTable.matrix_ofFeatures fs samples _)

/-- Classifying rows of features: what the classifier predicts, if there is one prediction a row. -/
theorem classifyTable_of_features {t : FeatureTable} {rows : List (List Float32)}
    (h : features config bundle t = .ok rows) (classifier : Classifier) :
    classifyTable config bundle classifier t =
      ((classifier rows).mapError ModelError.prediction).bind fun predictions =>
        if predictions.length = t.size then .ok (predictions.map .ofPrediction)
        else .error (.outputShape t.size predictions.length) := by
  rw [classifyTable, h]
  cases hpredict : classifier rows with
  | error e => simp [Except.mapError, Except.bind, bind, hpredict]
  | ok predictions =>
    by_cases hlength : predictions.length = t.size
    · simp [Except.mapError, Except.bind, bind, pure, Except.pure, hpredict, hlength]
    · simp [Except.mapError, Except.bind, bind, throw, throwThe, MonadExceptOf.throw, hpredict,
        hlength]

/-- The verdicts of a classifier of single rows on a batch. -/
theorem classifyTable_ofSamples (classifier : Classifier)
    (predict : List Float32 → Except String Float32)
    (hrows : ∀ rows, classifier rows = rows.mapM predict) (samples : List Sample) :
    classifyTable config bundle classifier (.ofSamples samples) =
      ((bundle.features (.ofConfig config.syntactic)).mapError ModelError.pipeline).bind fun fs =>
        samples.mapM fun s => verdictOn predict (Feature.row fs bundle.schema.columns s) := by
  have hfeatures := features_ofSamples config bundle samples
  cases hfs : bundle.features (.ofConfig config.syntactic) with
  | error e =>
    rw [hfs] at hfeatures
    rw [classifyTable, hfeatures]
    rfl
  | ok fs =>
    rw [hfs] at hfeatures
    rw [classifyTable_of_features config bundle hfeatures, hrows]
    change _ = samples.mapM (verdictOn predict ∘ Feature.row fs bundle.schema.columns)
    rw [← List.mapM_map, ← mapM_verdictOn]
    cases hpredict : (samples.map (Feature.row fs bundle.schema.columns)).mapM predict with
    | error e => rfl
    | ok predictions =>
      have hlength : predictions.length = (FeatureTable.ofSamples samples).size := by
        rw [length_of_mapM hpredict, List.length_map]
        rfl
      exact if_pos hlength

/-- Classifying a script is classifying the batch that holds it alone. -/
theorem classify_ofSamples (classifier : Classifier)
    (predict : List Float32 → Except String Float32)
    (hrows : ∀ rows, classifier rows = rows.mapM predict) (s : Sample) :
    classify config bundle classifier s.text =
      ((bundle.features (.ofConfig config.syntactic)).mapError ModelError.pipeline).bind fun fs =>
        verdictOn predict (Feature.row fs bundle.schema.columns s) := by
  rw [classify, classifyTable_ofSamples config bundle classifier predict hrows]
  cases bundle.features (.ofConfig config.syntactic) with
  | error e => rfl
  | ok fs =>
    -- the row of a sample depends on its text only
    have hrow : Feature.row fs bundle.schema.columns (.ofScript s.text) =
        Feature.row fs bundle.schema.columns s := rfl
    simp only [Except.mapError, Except.bind, List.mapM_cons, List.mapM_nil, hrow]
    cases verdictOn predict (Feature.row fs bundle.schema.columns s) <;> rfl

end Model

/-! ## The main result -/

namespace Pipeline

open Config (PipelineConfig)
open Model (Classifier classify classifyTable)

section

variable (config : PipelineConfig) (bundle : Bundle) (samples : List Sample)

theorem transform_ok_iff (hne : samples ≠ []) :
    (∃ out, transform config bundle (.ofSamples samples) = .ok out) ↔
      ∀ s ∈ samples, ∃ single, transform config bundle (.ofSamples [s]) = .ok single := by
  obtain ⟨s₀, hs₀⟩ := List.exists_mem_of_ne_nil samples hne
  simp only [transform_ofSamples]
  cases bundle.features (.ofConfig config.syntactic) with
  | error e =>
    refine ⟨fun ⟨out, h⟩ => (nomatch h), fun h => ?_⟩
    obtain ⟨single, hsingle⟩ := h s₀ hs₀
    exact nomatch hsingle
  | ok fs => exact ⟨fun _ s _ => ⟨_, rfl⟩, fun _ => ⟨_, rfl⟩⟩

theorem transform_error_iff (hne : samples ≠ []) (e : PipelineError) :
    transform config bundle (.ofSamples samples) = .error e ↔
      ∀ s ∈ samples, transform config bundle (.ofSamples [s]) = .error e := by
  obtain ⟨s₀, hs₀⟩ := List.exists_mem_of_ne_nil samples hne
  simp only [transform_ofSamples]
  cases bundle.features (.ofConfig config.syntactic) with
  | error e' => exact ⟨fun h s _ => h, fun h => h s₀ hs₀⟩
  | ok fs => exact ⟨fun h => (nomatch h), fun h => (nomatch h s₀ hs₀)⟩

/-- A row of a batch is the row of the batch of its sample alone. -/
theorem transform_cells {out : FeatureTable}
    (hout : transform config bundle (.ofSamples samples) = .ok out) {i : Nat}
    (hi : i < samples.length) :
    ∃ single, transform config bundle (.ofSamples [samples[i]]) = .ok single ∧
      ∀ j < bundle.schema.columns.length, ∃ x,
        out.cell? i j = some x ∧ single.cell? 0 j = some x := by
  rw [transform_ofSamples] at hout
  cases hfs : bundle.features (.ofConfig config.syntactic) with
  | error e =>
    rw [hfs] at hout
    exact nomatch hout
  | ok fs =>
    rw [hfs] at hout
    cases hout
    refine ⟨FeatureTable.ofFeatures fs [samples[i]], ?_, fun j hj => ?_⟩
    · rw [transform_ofSamples, hfs]
      rfl
    · have hj' : j < fs.length := by
        rwa [← Bundle.features_keys hfs, List.length_map] at hj
      refine ⟨fs[j].value samples[i].text, ?_, ?_⟩
      · rw [FeatureTable.cell?_ofFeatures, List.getElem?_eq_getElem hj',
          List.getElem?_eq_getElem hi]
        rfl
      · rw [FeatureTable.cell?_ofFeatures, List.getElem?_eq_getElem hj']
        rfl

/-- The verdicts on a batch are the verdicts on its scripts. -/
theorem classifyTable_eq_mapM (hne : samples ≠ []) (classifier : Classifier)
    (predict : List Float32 → Except String Float32)
    (hrows : ∀ rows, classifier rows = rows.mapM predict) :
    classifyTable config bundle classifier (.ofSamples samples) =
      samples.mapM fun s => classify config bundle classifier s.text := by
  obtain ⟨s₀, rest, rfl⟩ := List.exists_cons_of_ne_nil hne
  rw [Model.classifyTable_ofSamples config bundle classifier predict hrows]
  simp only [Model.classify_ofSamples config bundle classifier predict hrows]
  cases bundle.features (.ofConfig config.syntactic) with
  | error e =>
    -- both fail at once: the batch before its rows, the scripts at the first of them
    rw [List.mapM_cons]
    rfl
  | ok fs => rfl

end

/-- A batch is transformed if and only if each of its samples is, and otherwise every one of them
fails with the error of the batch; the cells of a row are those of the batch of its sample alone;
and with a classifier that predicts each row from that row, the verdicts on a batch are the verdicts
on its scripts. -/
theorem transform_row_by_row (config : PipelineConfig) (bundle : Bundle) (samples : List Sample)
    (hne : samples ≠ []) :
    ((∃ out, transform config bundle (.ofSamples samples) = .ok out) ↔
      ∀ s ∈ samples, ∃ single, transform config bundle (.ofSamples [s]) = .ok single) ∧
    (∀ e, transform config bundle (.ofSamples samples) = .error e ↔
      ∀ s ∈ samples, transform config bundle (.ofSamples [s]) = .error e) ∧
    (∀ out, transform config bundle (.ofSamples samples) = .ok out →
      ∀ i (hi : i < samples.length), ∃ single,
        transform config bundle (.ofSamples [samples[i]]) = .ok single ∧
        ∀ j < bundle.schema.columns.length, ∃ x,
          out.cell? i j = some x ∧ single.cell? 0 j = some x) ∧
    ∀ (classifier : Classifier) (predict : List Float32 → Except String Float32),
      (∀ rows, classifier rows = rows.mapM predict) →
        classifyTable config bundle classifier (.ofSamples samples) =
          samples.mapM fun s => classify config bundle classifier s.text := by
  refine ⟨transform_ok_iff config bundle samples hne,
    transform_error_iff config bundle samples hne, ?_, ?_⟩
  · intro out hout i hi
    exact transform_cells config bundle samples hout hi
  · intro classifier predict hrows
    exact classifyTable_eq_mapM config bundle samples hne classifier predict hrows

/-- A batch of two scripts, and a classifier that repeats the first number of each row. -/
theorem transform_row_by_row_two :
    let bundle := Bundle.new default ⟨true, false, false⟩ none none ⟨Statistical.keys⟩
    let samples : List Sample := [.ofScript "eval(a)", .ofScript ""]
    let classifier : Classifier := fun rows => rows.mapM fun row => .ok (row.headD 0)
    samples ≠ [] ∧
      classifyTable {} bundle classifier (.ofSamples samples) =
        samples.mapM fun s => classify {} bundle classifier s.text :=
  ⟨by decide, (transform_row_by_row {} _ _ (by decide)).2.2.2 _ _ fun _ => rfl⟩

end Pipeline

end ScriptFeatures
