import ScriptFeatures.Pipeline.Basic
import ScriptFeatures.Proofs.Table.Feature
import ScriptFeatures.Proofs.Text.Tally

/-! The features behind a batch. Every strategy adds columns that hold, for each sample, a number
computed from the text of that sample alone; a strategy is therefore a list of features.

* `Strategy.features`: the features of a strategy for a vocabulary and a taxonomy, with the three
  `columns_eq` lemmas that tie them to the columns.
* `Bundle.features`: what a bundle computes, or why it computes nothing; no sample is involved.
* `transform_ofSamples`: transforming a batch is filling in the features of the bundle. -/

namespace ScriptFeatures

open Table (Column Feature FeatureTable Sample TableError)

/-! ## The features of each strategy -/

namespace Statistical

/-- The statistical features. -/
def features : List Feature :=
  keys.zipIdx.map fun (key, i) =>
    ⟨key, fun text => ((Counters.ofText text).features.map (·.2)).toArray.getD i 0⟩

theorem columns_eq (texts : List String) : columns texts = features.map (·.column texts) := by
  rw [columns, features, List.map_map]
  refine List.map_congr_left fun (key, i) _ => ?_
  exact congrArg (Column.mk key) List.map_map

theorem features_keys : features.map Feature.key = keys := by
  rw [features, List.map_map]
  exact List.zipIdx_map_fst 0 keys

theorem keys_nodup : keys.Nodup := by
  decide +kernel

theorem group_of_mem_keys {key : Table.Key} (h : key ∈ keys) : key.group = .statistical := by
  obtain ⟨name, -, rfl⟩ := List.mem_map.mp h
  rfl

end Statistical

namespace Lexical.Vectorizer

/-- The features of a vocabulary: the weight of each of its terms. -/
def features (v : Vectorizer) : List Feature :=
  v.terms.zipIdx.map fun (term, j) =>
    ⟨⟨.lexical, term⟩, fun text =>
      (v.rowOfCounts v.idf.toArray (v.termCounts v.terms.toArray text).toList).toArray.getD j 0⟩

theorem columns_eq (v : Vectorizer) (texts : List String) :
    v.columns texts = v.features.map (·.column texts) := by
  rw [columns, features, List.map_map]
  refine List.map_congr_left fun (term, j) _ => ?_
  have hcells : ((v.transform texts).map List.toArray).map (·.getD j 0) = texts.map fun text =>
      (v.rowOfCounts v.idf.toArray
        (v.termCounts v.terms.toArray text).toList).toArray.getD j 0 := by
    rw [transform, List.map_map, List.map_map]
    rfl
  exact congrArg (Column.mk ⟨.lexical, term⟩) hcells

theorem features_keys (v : Vectorizer) :
    v.features.map Feature.key = v.terms.map fun term => ⟨.lexical, term⟩ := by
  rw [features, List.map_map]
  conv_rhs => rw [← List.zipIdx_map_fst 0 v.terms, List.map_map]
  rfl

theorem fit_terms_nodup (config : Config.LexicalConfig) (docs : List String) :
    (fit config docs).terms.Nodup :=
  (List.filter_sublist.map _).nodup (Text.tally_nodup _)

end Lexical.Vectorizer

namespace Syntactic

/-- The features of a taxonomy: the number of nodes of each of its kinds. -/
def features (limits : Limits) (taxonomy : List Tree.NodeKind) : List Feature :=
  taxonomy.map fun kind =>
    ⟨⟨.syntactic, kind.label⟩, fun text => valueOf kind (countsOf limits text)⟩

theorem columns_eq (limits : Limits) (taxonomy : List Tree.NodeKind) (texts : List String) :
    columns (texts.map (countsOf limits)) taxonomy =
      (features limits taxonomy).map (·.column texts) := by
  rw [columns, features, List.map_map]
  refine List.map_congr_left fun kind _ => ?_
  exact congrArg (Column.mk ⟨.syntactic, kind.label⟩) List.map_map

theorem features_keys (limits : Limits) (taxonomy : List Tree.NodeKind) :
    (features limits taxonomy).map Feature.key =
      (taxonomy.map Tree.NodeKind.label).map fun label => ⟨.syntactic, label⟩ := by
  rw [features, List.map_map, List.map_map]
  rfl

theorem kindsOf_labels_nodup (results : List (Except ParseError NodeCounts)) :
    ((kindsOf results).map Tree.NodeKind.label).Nodup := by
  have hall : (Tree.NodeKind.all.map Tree.NodeKind.label).Nodup := by decide +kernel
  exact (List.filter_sublist.map _).nodup hall

end Syntactic

namespace Pipeline

open Config (PipelineConfig)
open Syntactic (Limits)

/-- The features of a strategy, given a vocabulary and a taxonomy. -/
def Strategy.features (limits : Limits) (v : Lexical.Vectorizer) (taxonomy : List Tree.NodeKind) :
    Strategy → List Feature
  | .statistical => Statistical.features
  | .lexical => v.features
  | .syntactic => Syntactic.features limits taxonomy

/-! ## The features of a bundle -/

namespace Bundle

/-- The features of one strategy of a bundle. -/
def featuresOf (limits : Limits) (bundle : Bundle) : Strategy → Except PipelineError (List Feature)
  | .statistical => .ok Statistical.features
  | .lexical =>
    match bundle.vectorizer with
    | none => .error (.missingArtifact .lexical)
    | some v => .ok v.features
  | .syntactic =>
    match bundle.taxonomy with
    | none => .error (.missingArtifact .syntactic)
    | some taxonomy => .ok (Syntactic.features limits taxonomy)

/-- Adds the features of one strategy of a bundle to those of the strategies before. -/
def addFeatures (limits : Limits) (bundle : Bundle) (features : List Feature) (s : Strategy) :
    Except PipelineError (List Feature) := do
  let more ← bundle.featuresOf limits s
  (Feature.addAll features more).mapError .table

/-- What a bundle computes: one feature for each column of its schema. -/
def features (limits : Limits) (bundle : Bundle) : Except PipelineError (List Feature) := do
  let all ← bundle.strategies.toList.foldlM (bundle.addFeatures limits) []
  return Feature.select all [] bundle.schema.columns

end Bundle

/-! ## Transforming -/

theorem mapError_map {α β ε ε' : Type} (x : Except ε α) (f : α → β) (g : ε → ε') :
    (x.map f).mapError g = (x.mapError g).map f := by
  cases x <;> rfl

theorem applyStep_ofFeatures (limits : Limits) (bundle : Bundle) (features : List Feature)
    (samples : List Sample) (s : Strategy) :
    applyStep limits bundle (.ofFeatures features samples) s =
      (bundle.addFeatures limits features s).map (FeatureTable.ofFeatures · samples) := by
  cases s with
  | statistical =>
    rw [applyStep, Statistical.extract, Statistical.columns_eq, FeatureTable.ofFeatures_texts,
      FeatureTable.pushAll_ofFeatures, mapError_map]
    rfl
  | lexical =>
    rw [applyStep, Bundle.addFeatures, Bundle.featuresOf]
    cases bundle.vectorizer with
    | none => rfl
    | some v =>
      simp only [Lexical.apply, Lexical.Vectorizer.columns_eq, FeatureTable.ofFeatures_texts,
        FeatureTable.pushAll_ofFeatures, mapError_map]
      rfl
  | syntactic =>
    rw [applyStep, Bundle.addFeatures, Bundle.featuresOf]
    cases bundle.taxonomy with
    | none => rfl
    | some taxonomy =>
      simp only [Syntactic.applyTaxonomy, Syntactic.append, FeatureTable.ofFeatures_texts,
        Syntactic.columns_eq, FeatureTable.pushAll_ofFeatures]
      change _ = Except.map _ ((Feature.addAll features _).mapError PipelineError.table)
      cases Feature.addAll features (Syntactic.features limits taxonomy) <;> rfl

theorem foldlM_applyStep (limits : Limits) (bundle : Bundle) (samples : List Sample)
    (strategies : List Strategy) (features : List Feature) :
    strategies.foldlM (applyStep limits bundle) (.ofFeatures features samples) =
      (strategies.foldlM (bundle.addFeatures limits) features).map
        (FeatureTable.ofFeatures · samples) := by
  induction strategies generalizing features with
  | nil => rfl
  | cons s rest ih =>
    rw [List.foldlM_cons, List.foldlM_cons, applyStep_ofFeatures]
    cases bundle.addFeatures limits features s with
    | error e => rfl
    | ok more => exact ih more

/-- Transforming a batch fills in the features of the bundle for its samples. -/
theorem transform_ofSamples (config : PipelineConfig) (bundle : Bundle) (samples : List Sample) :
    transform config bundle (.ofSamples samples) =
      (bundle.features (.ofConfig config.syntactic)).map (FeatureTable.ofFeatures · samples) := by
  rw [transform, FeatureTable.ofSamples_eq_ofFeatures, foldlM_applyStep, Bundle.features]
  cases bundle.strategies.toList.foldlM (bundle.addFeatures (.ofConfig config.syntactic)) [] with
  | error e => rfl
  | ok all => exact congrArg Except.ok (FeatureTable.project_ofFeatures all samples _)

end Pipeline

end ScriptFeatures
