import Mathlib.Data.List.FinRange
import ScriptFeatures.Proofs.Pipeline.FitTransform

/-! Fitting does not look at the order of the rows. A vocabulary is fitted on a tally of the terms
of all documents, and a taxonomy on the kinds that occur in some row, so a permuted batch teaches
the same; the fitted features are then filled in row by row.

* `FeatureTable.permute`: the table with its rows in another order.
* `Vectorizer.fit_perm`, `kindsOf_perm`: what is fitted on permuted texts is the same.
* `fit_permute`: fitting a permuted table permutes the fitted table and leaves the bundle alone. -/

namespace ScriptFeatures

open Table (Feature FeatureTable Sample)

/-! ## Rows in another order -/

namespace Table

/-- A list of `n` items with the item `σ i` at position `i`. -/
def reorder [Inhabited α] {n : Nat} (σ : Equiv.Perm (Fin n)) (xs : List α) : List α :=
  List.ofFn fun i => xs.getD (σ i) default

/-- The table whose row `i` is row `σ i` of a table with `n` rows. -/
def FeatureTable.permute {n : Nat} (t : FeatureTable) (σ : Equiv.Perm (Fin n)) : FeatureTable where
  samples := reorder σ t.samples
  columns := t.columns.map fun c => ⟨c.key, reorder σ c.values⟩

variable {n : Nat} (σ : Equiv.Perm (Fin n))

theorem reorder_perm [Inhabited α] (xs : List α) (hn : xs.length = n) : (reorder σ xs).Perm xs := by
  subst hn
  have hself : (List.ofFn fun i : Fin xs.length => xs.getD i default) = xs := by simp
  have hperm := σ.ofFn_comp_perm fun i => xs.getD i default
  rwa [hself] at hperm

theorem reorder_map [Inhabited α] [Inhabited β] (f : α → β) (xs : List α) (hn : xs.length = n) :
    reorder σ (xs.map f) = (reorder σ xs).map f := by
  have hget : ∀ i : Fin n, (xs.map f).getD (σ i) default = f (xs.getD (σ i) default) := by
    intro i
    have hi : (σ i : Nat) < xs.length := hn ▸ (σ i).isLt
    simp [hi]
  rw [reorder, reorder, List.map_ofFn]
  exact congrArg List.ofFn (funext hget)

theorem FeatureTable.permute_ofFeatures (features : List Feature) (samples : List Sample)
    (hn : samples.length = n) :
    (ofFeatures features samples).permute σ = ofFeatures features (reorder σ samples) := by
  have hvalues : ∀ f : Feature, reorder σ ((samples.map Sample.text).map f.value) =
      ((reorder σ samples).map Sample.text).map f.value := by
    intro f
    rw [reorder_map σ f.value _ (by rw [List.length_map, hn]), reorder_map σ Sample.text _ hn]
  refine eq_of_columns_eq rfl (List.map_map.trans ?_)
  exact List.map_congr_left fun f _ => congrArg (Column.mk f.key) (hvalues f)

end Table

/-! ## What a permuted batch teaches -/

theorem Lexical.Vectorizer.documentCounts_perm (lowercase : Bool) {docs docs' : List String}
    (h : docs'.Perm docs) : documentCounts lowercase docs' = documentCounts lowercase docs :=
  Text.tally_perm (h.flatMap_right _)

theorem Lexical.Vectorizer.fit_perm (config : Config.LexicalConfig) {docs docs' : List String}
    (h : docs'.Perm docs) : fit config docs' = fit config docs := by
  rw [fit, fit, documentCounts_perm config.lowercase h, h.length_eq]

theorem Syntactic.kindsOf_perm {results results' : List (Except ParseError NodeCounts)}
    (h : results'.Perm results) : kindsOf results' = kindsOf results := by
  rw [kindsOf, kindsOf]
  exact List.filter_congr fun kind _ => h.any_eq

namespace Pipeline

open Calendar (Moment)
open Config (PipelineConfig)

variable (config : PipelineConfig)

theorem fittedVocabulary_perm {texts texts' : List String} (h : texts'.Perm texts) :
    fittedVocabulary config texts' = fittedVocabulary config texts :=
  Lexical.Vectorizer.fit_perm config.lexical h

theorem fittedTaxonomy_perm {texts texts' : List String} (h : texts'.Perm texts) :
    fittedTaxonomy config texts' = fittedTaxonomy config texts :=
  Syntactic.kindsOf_perm (h.map _)

theorem allFitted_perm {samples samples' : List Sample} (h : samples'.Perm samples) :
    allFitted config samples' = allFitted config samples := by
  have htexts := h.map Sample.text
  have hfeatures : fittedFeatures config (samples'.map Sample.text) =
      fittedFeatures config (samples.map Sample.text) := by
    funext s
    rw [fittedFeatures, fittedFeatures, fittedVocabulary_perm config htexts,
      fittedTaxonomy_perm config htexts]
  rw [allFitted, allFitted, hfeatures]

theorem fittedBundle_perm (now now' : Moment) {samples samples' : List Sample}
    (h : samples'.Perm samples) :
    fittedBundle config now' samples' =
      { fittedBundle config now samples with createdAt := now' } := by
  have htexts := h.map Sample.text
  rw [fittedBundle, fittedVocabulary_perm config htexts, fittedTaxonomy_perm config htexts,
    allFitted_perm config h]
  rfl

/-! ## The main result -/

/-- Fitting a table without columns and fitting it with its rows in another order give the same
bundle, up to the time of fitting, and the same table with its rows in that order. -/
theorem fit_permute (now now' : Moment) (t : FeatureTable) (ht : t.columns = [])
    (σ : Equiv.Perm (Fin t.size)) :
    ∃ out bundle, fit config now t = .ok (out, bundle) ∧
      out.size = t.size ∧ (∀ c ∈ out.columns, c.values.length = t.size) ∧
      fit config now' (t.permute σ) = .ok (out.permute σ, { bundle with createdAt := now' }) := by
  obtain ⟨samples, rfl⟩ := FeatureTable.exists_eq_ofSamples ht
  have hperm : (Table.reorder σ samples).Perm samples := Table.reorder_perm σ samples rfl
  have htable : (FeatureTable.ofFeatures (allFitted config samples) samples).permute σ =
      .ofFeatures (allFitted config (Table.reorder σ samples)) (Table.reorder σ samples) := by
    rw [FeatureTable.permute_ofFeatures σ _ samples rfl, allFitted_perm config hperm]
  refine ⟨_, _, fit_ofSamples config now samples, rfl, fun c hc => ?_, ?_⟩
  · obtain ⟨f, -, rfl⟩ := List.mem_map.mp hc
    simp [Feature.column, FeatureTable.size]
  · rw [htable, ← fittedBundle_perm config now now' hperm]
    exact fit_ofSamples config now' (Table.reorder σ samples)

/-- Three scripts, of which one is no script at all, fitted under all strategies and then with the
first and the last of them exchanged. -/
theorem fit_permute_three :
    let config : PipelineConfig :=
      { strategies := ⟨true, true, true⟩, lexical := { minimum := 1, maximum := 1.0 } }
    let t : FeatureTable :=
      .ofSamples [.ofScript "eval(unescape(a))", .ofScript "if ((", .ofScript "eval(b)"]
    let t' : FeatureTable :=
      .ofSamples [.ofScript "eval(b)", .ofScript "if ((", .ofScript "eval(unescape(a))"]
    let σ : Equiv.Perm (Fin 3) := Equiv.swap 0 2
    ∃ out bundle, fit config default t = .ok (out, bundle) ∧
      fit config default t' = .ok (out.permute σ, { bundle with createdAt := default }) := by
  intro config t t' σ
  obtain ⟨out, bundle, hfit, -, -, hpermuted⟩ := fit_permute config default default t rfl σ
  have ht : t.permute σ = t' := rfl
  exact ⟨out, bundle, hfit, ht ▸ hpermuted⟩

end Pipeline

end ScriptFeatures
