import Mathlib.Data.List.Nodup
import ScriptFeatures.Proofs.Lexical.Vocabulary
import ScriptFeatures.Proofs.Pipeline.Features

/-! What fitting leaves behind reproduces what it computed. Fitting finds a vocabulary and a
taxonomy in its batch and adds the features of each strategy; applying the bundle adds the same
features from the stored vocabulary and taxonomy, and its schema, whose keys are distinct, selects
all of them in their order. -/

namespace ScriptFeatures

open Table (Feature FeatureTable Key Sample TableError)

/-! ## Limits -/

namespace Config

/-- Two settings give scripts the same bounds on size, nesting and depth of expressions. -/
structure SyntacticConfig.SameBounds (c d : SyntacticConfig) : Prop where
  bytes : c.maxBytes = d.maxBytes
  nesting : c.maxNesting = d.maxNesting
  expression : c.maxExpression = d.maxExpression

end Config

namespace Syntactic

theorem parsers_ofConfig (c : Config.SyntacticConfig) : (Limits.ofConfig c).parsers ≠ 0 := by
  have h : 1 ≤ max c.maxParsers (max c.workers 1) :=
    Nat.le_trans (Nat.le_max_right c.workers 1) (Nat.le_max_right c.maxParsers _)
  exact Nat.one_le_iff_ne_zero.mp h

/-- With a parser to use, a parse depends on the bounds alone. -/
theorem parse_ofConfig {c d : Config.SyntacticConfig} (h : c.SameBounds d) (source : String) :
    parse (.ofConfig c) source = parse (.ofConfig d) source := by
  have hbytes : (Limits.ofConfig c).bytes = (Limits.ofConfig d).bytes := h.bytes
  have hnesting : (Limits.ofConfig c).nesting = (Limits.ofConfig d).nesting := h.nesting
  have hexpression : (Limits.ofConfig c).expression = (Limits.ofConfig d).expression :=
    h.expression
  simp only [parse, Limits.treeDepth, hbytes, hnesting, hexpression, parsers_ofConfig]

theorem features_ofConfig {c d : Config.SyntacticConfig} (h : c.SameBounds d)
    (taxonomy : List Tree.NodeKind) :
    features (.ofConfig c) taxonomy = features (.ofConfig d) taxonomy := by
  have hcounts : countsOf (.ofConfig c) = countsOf (.ofConfig d) := by
    funext source
    rw [countsOf, countsOf, parse_ofConfig h]
  rw [features, features, hcounts]

end Syntactic

namespace Pipeline

open Config (PipelineConfig)
open Syntactic (Limits)

/-! ## What a batch teaches -/

/-- The vocabulary that is fitted on some texts. -/
def fittedVocabulary (config : PipelineConfig) (texts : List String) : Lexical.Vectorizer :=
  .fit config.lexical texts

/-- The kinds of nodes in the trees of some texts. -/
def fittedTaxonomy (config : PipelineConfig) (texts : List String) : List Tree.NodeKind :=
  Syntactic.kindsOf (texts.map (Syntactic.countsOf (.ofConfig config.syntactic)))

/-- The features of a strategy that is fitted on some texts. -/
def fittedFeatures (config : PipelineConfig) (texts : List String) : Strategy → List Feature :=
  Strategy.features (.ofConfig config.syntactic) (fittedVocabulary config texts)
    (fittedTaxonomy config texts)

variable (config : PipelineConfig)

/-- The keys of a strategy are distinct and belong to its group. -/
theorem fittedFeatures_keys (texts : List String) (s : Strategy) :
    ((fittedFeatures config texts s).map Feature.key).Nodup ∧
      ∀ key ∈ (fittedFeatures config texts s).map Feature.key, key.group = s.group := by
  cases s with
  | statistical =>
    rw [fittedFeatures, Strategy.features, Statistical.features_keys]
    exact ⟨Statistical.keys_nodup, fun key => Statistical.group_of_mem_keys⟩
  | lexical =>
    rw [fittedFeatures, Strategy.features, Lexical.Vectorizer.features_keys]
    refine ⟨(Lexical.Vectorizer.fit_terms_nodup _ _).map fun a b h => congrArg Key.name h, ?_⟩
    intro key hkey
    obtain ⟨term, -, rfl⟩ := List.mem_map.mp hkey
    rfl
  | syntactic =>
    rw [fittedFeatures, Strategy.features, Syntactic.features_keys]
    refine ⟨(Syntactic.kindsOf_labels_nodup _).map fun a b h => congrArg Key.name h, ?_⟩
    intro key hkey
    obtain ⟨label, -, rfl⟩ := List.mem_map.mp hkey
    rfl

theorem Strategies.toList_nodup (set : Strategies) : set.toList.Nodup := by
  obtain ⟨statistical, lexical, syntactic⟩ := set
  cases statistical <;> cases lexical <;> cases syntactic <;> decide

/-- No two features of a fit have the same key. -/
theorem fittedFeatures_nodup (texts : List String) :
    ((config.strategies.toList.flatMap (fittedFeatures config texts)).map Feature.key).Nodup := by
  rw [List.map_flatMap, List.nodup_flatMap]
  refine ⟨fun s _ => (fittedFeatures_keys config texts s).1, ?_⟩
  refine config.strategies.toList_nodup.imp fun {s s'} hne key hs hs' => ?_
  have hgroup : s.group = s'.group :=
    ((fittedFeatures_keys config texts s).2 key hs).symm.trans
      ((fittedFeatures_keys config texts s').2 key hs')
  cases s <;> cases s' <;> first | exact hne rfl | exact nomatch hgroup

/-! ## Fitting -/

/-- A fitting after a strategy has been run on a batch. -/
def Fitting.next (samples : List Sample) (features : List Feature) (f : Fitting) (s : Strategy) :
    Fitting where
  table := .ofFeatures (features ++ fittedFeatures config (samples.map Sample.text) s) samples
  vectorizer :=
    if s = .lexical then some (fittedVocabulary config (samples.map Sample.text)) else f.vectorizer
  taxonomy :=
    if s = .syntactic then some (fittedTaxonomy config (samples.map Sample.text)) else f.taxonomy

theorem step_ofFeatures (samples : List Sample) (features : List Feature) (f : Fitting)
    (hf : f.table = .ofFeatures features samples) (s : Strategy)
    (h : ((features ++ fittedFeatures config (samples.map Sample.text) s).map Feature.key).Nodup) :
    Fitting.step config f s = .ok (Fitting.next config samples features f s) := by
  have hadd := Feature.addAll_of_nodup features _ h
  cases s with
  | statistical =>
    rw [Fitting.step, hf, Statistical.extract, Statistical.columns_eq,
      FeatureTable.ofFeatures_texts, FeatureTable.pushAll_ofFeatures]
    rw [fittedFeatures, Strategy.features] at hadd
    rw [hadd]
    rfl
  | lexical =>
    rw [Fitting.step, hf, Lexical.extract, Lexical.apply, Lexical.Vectorizer.columns_eq,
      FeatureTable.ofFeatures_texts, FeatureTable.pushAll_ofFeatures]
    rw [fittedFeatures, Strategy.features] at hadd
    change (Except.map _ (Feature.addAll features _) >>= _) >>= _ = _
    rw [fittedVocabulary] at hadd
    rw [hadd]
    rfl
  | syntactic =>
    rw [Fitting.step, hf, Syntactic.extract, Syntactic.append, Syntactic.columns_eq,
      FeatureTable.ofFeatures_texts, FeatureTable.pushAll_ofFeatures]
    rw [fittedFeatures, Strategy.features, fittedTaxonomy] at hadd
    rw [hadd]
    rfl

/-- Running strategies adds their features one after the other and keeps what was fitted last. -/
theorem foldlM_step (samples : List Sample) (strategies : List Strategy) (features : List Feature)
    (f : Fitting) (hf : f.table = .ofFeatures features samples)
    (h : ((features ++ strategies.flatMap
      (fittedFeatures config (samples.map Sample.text))).map Feature.key).Nodup) :
    ∃ g, strategies.foldlM (Fitting.step config) f = .ok g ∧
      g.table = .ofFeatures (features ++ strategies.flatMap
        (fittedFeatures config (samples.map Sample.text))) samples ∧
      g.vectorizer = (if .lexical ∈ strategies then
        some (fittedVocabulary config (samples.map Sample.text)) else f.vectorizer) ∧
      g.taxonomy = (if .syntactic ∈ strategies then
        some (fittedTaxonomy config (samples.map Sample.text)) else f.taxonomy) := by
  induction strategies generalizing features f with
  | nil => exact ⟨f, rfl, by simpa using hf, by simp, by simp⟩
  | cons s rest ih =>
    rw [List.flatMap_cons, ← List.append_assoc] at h ⊢
    have hstep := step_ofFeatures config samples features f hf s
      ((List.map_append ▸ h).of_append_left)
    obtain ⟨g, hg, htable, hvectorizer, htaxonomy⟩ :=
      ih _ (Fitting.next config samples features f s) rfl h
    refine ⟨g, ?_, htable, ?_, ?_⟩
    · rw [List.foldlM_cons, hstep]
      exact hg
    · rw [hvectorizer, Fitting.next]
      by_cases hs : s = .lexical <;> simp [hs, eq_comm]
    · rw [htaxonomy, Fitting.next]
      by_cases hs : s = .syntactic <;> simp [hs, eq_comm]

/-! ## Applying what was fitted -/

theorem foldlM_addFeatures (limits : Limits) (bundle : Bundle) (F : Strategy → List Feature)
    (strategies : List Strategy) (features : List Feature)
    (hF : ∀ s ∈ strategies, bundle.featuresOf limits s = .ok (F s))
    (h : ((features ++ strategies.flatMap F).map Feature.key).Nodup) :
    strategies.foldlM (bundle.addFeatures limits) features =
      .ok (features ++ strategies.flatMap F) := by
  induction strategies generalizing features with
  | nil => rw [List.flatMap_nil, List.append_nil]; rfl
  | cons s rest ih =>
    rw [List.flatMap_cons, ← List.append_assoc] at h ⊢
    have hadd := Feature.addAll_of_nodup features (F s) ((List.map_append ▸ h).of_append_left)
    have hstep : bundle.addFeatures limits features s = .ok (features ++ F s) := by
      rw [Bundle.addFeatures, hF s List.mem_cons_self]
      exact congrArg (Except.mapError PipelineError.table) hadd
    rw [List.foldlM_cons, hstep]
    exact ih _ (fun s' hs' => hF s' (List.mem_cons_of_mem _ hs')) h

/-- The fitted features, strategy by strategy. -/
def allFitted (samples : List Sample) : List Feature :=
  config.strategies.toList.flatMap (fittedFeatures config (samples.map Sample.text))

theorem mem_keys_allFitted {config : PipelineConfig} {samples : List Sample} {s : Strategy}
    {key : Key} (hs : s ∈ config.strategies.toList)
    (hkey : key ∈ (fittedFeatures config (samples.map Sample.text) s).map Feature.key) :
    key ∈ (allFitted config samples).map Feature.key := by
  rw [allFitted, List.map_flatMap]
  exact List.mem_flatMap.mpr ⟨s, hs, hkey⟩

/-- The bundle of a fit, which stores the fitted vocabulary and taxonomy where they are needed. -/
def fittedBundle (now : Calendar.Moment) (samples : List Sample) : Bundle :=
  .new now config.strategies
    (if .lexical ∈ config.strategies.toList then
      some (fittedVocabulary config (samples.map Sample.text)) else none)
    (if .syntactic ∈ config.strategies.toList then
      some (fittedTaxonomy config (samples.map Sample.text)) else none)
    ⟨(allFitted config samples).map Feature.key⟩

/-- Fitting a batch fills in the fitted features for its samples. -/
theorem fit_ofSamples (now : Calendar.Moment) (samples : List Sample) :
    fit config now (.ofSamples samples) =
      .ok (.ofFeatures (allFitted config samples) samples, fittedBundle config now samples) := by
  obtain ⟨g, hg, htable, hvectorizer, htaxonomy⟩ :=
    foldlM_step config samples config.strategies.toList [] ⟨.ofSamples samples, none, none⟩ rfl
      (fittedFeatures_nodup config _)
  have hkeys : g.table.keysIn none = (allFitted config samples).map Feature.key := by
    have hscope : FeatureTable.inScope none = fun _ : Key => true := rfl
    rw [FeatureTable.keysIn, hscope, List.filter_true, htable, FeatureTable.ofFeatures_keys]
    rfl
  have hbundle : Bundle.new now config.strategies g.vectorizer g.taxonomy (.ofTable g.table none) =
      fittedBundle config now samples := by
    rw [hvectorizer, htaxonomy, Schema.ReferenceSchema.ofTable, hkeys]
    rfl
  rw [fit, hg, ← hbundle]
  exact congrArg (fun t => Except.ok (t, _)) htable

/-- The bundle of a fit computes the fitted features under the same bounds. -/
theorem features_fittedBundle (now : Calendar.Moment) (samples : List Sample)
    (c : Config.SyntacticConfig) (h : c.SameBounds config.syntactic) :
    (fittedBundle config now samples).features (.ofConfig c) = .ok (allFitted config samples) := by
  have hnodup : ((allFitted config samples).map Feature.key).Nodup :=
    fittedFeatures_nodup config _
  have hof : ∀ s ∈ config.strategies.toList,
      (fittedBundle config now samples).featuresOf (.ofConfig c) s =
        .ok (fittedFeatures config (samples.map Sample.text) s) := by
    intro s hs
    cases s with
    | statistical => rfl
    | lexical => simp [Bundle.featuresOf, fittedBundle, Bundle.new, hs, fittedFeatures,
        Strategy.features]
    | syntactic => simp [Bundle.featuresOf, fittedBundle, Bundle.new, hs, fittedFeatures,
        Strategy.features, Syntactic.features_ofConfig h]
  have hrun := foldlM_addFeatures (.ofConfig c) (fittedBundle config now samples) _ _ [] hof hnodup
  have hselect := Feature.select_self _ _ [] hnodup (fun f hf => hf) hnodup
  rw [Bundle.features]
  change (config.strategies.toList.foldlM _ _ >>= _) = _
  rw [hrun]
  exact congrArg Except.ok hselect

/-! ## The main result -/

/-- Fitting a table without columns succeeds, and under any settings with the same bounds on scripts
the bundle transforms the table into exactly the table that was fitted. -/
theorem transform_fit (now : Calendar.Moment) (t : FeatureTable) (ht : t.columns = []) :
    ∃ out bundle, fit config now t = .ok (out, bundle) ∧
      out.samples = t.samples ∧ out.keys = bundle.schema.columns ∧
      bundle.strategies = config.strategies ∧
      ∀ config' : PipelineConfig, config'.syntactic.SameBounds config.syntactic →
        transform config' bundle t = .ok out := by
  obtain ⟨samples, rfl⟩ := FeatureTable.exists_eq_ofSamples ht
  refine ⟨_, _, fit_ofSamples config now samples, rfl, ?_, rfl, fun config' hsame => ?_⟩
  · rw [FeatureTable.ofFeatures_keys]
    rfl
  · have htransform := transform_ofSamples config' (fittedBundle config now samples) samples
    rw [features_fittedBundle config now samples _ hsame] at htransform
    exact htransform

/-- Two scripts, of which one is no script at all, under all strategies; the settings that apply the
bundle have no strategy, another vocabulary and other numbers of workers. Every strategy has columns
in the table, the first of which has the lengths of the scripts. -/
theorem transform_fit_two :
    let config : PipelineConfig :=
      { strategies := ⟨true, true, true⟩, lexical := { minimum := 1, maximum := 1.0 } }
    let config' : PipelineConfig :=
      { strategies := .none, lexical := { sublinear := false }, syntactic := { workers := 3 } }
    let t : FeatureTable := .ofSamples [.ofScript "eval(unescape(a))", .ofScript "if (("]
    ∃ out bundle, fit config default t = .ok (out, bundle) ∧
      transform config' bundle t = .ok out ∧
      out.columns.head? = some ⟨⟨.statistical, "js_length"⟩, [Nat.toFloat 17, Nat.toFloat 5]⟩ ∧
      ⟨.lexical, "unescape"⟩ ∈ out.keys ∧ ⟨.syntactic, "CallExpression"⟩ ∈ out.keys := by
  intro config config' t
  obtain ⟨out, bundle, hfit, -, -, -, htransform⟩ := transform_fit config default t rfl
  refine ⟨out, bundle, hfit, htransform config' ⟨rfl, rfl, rfl⟩, ?_⟩
  cases hfit.symm.trans (fit_ofSamples config default t.samples)
  rw [FeatureTable.ofFeatures_keys]
  refine ⟨rfl, mem_keys_allFitted (s := .lexical) (by decide) ?_,
    mem_keys_allFitted (s := .syntactic) (by decide) ?_⟩
  · rw [fittedFeatures, Strategy.features, Lexical.Vectorizer.features_keys]
    refine List.mem_map.mpr ⟨"unescape", (Lexical.Vectorizer.mem_terms_fit _ _).mpr ?_, rfl⟩
    exact ⟨by decide +kernel, by decide +kernel, by decide +kernel⟩
  · rw [fittedFeatures, Strategy.features, Syntactic.features_keys, List.map_map]
    exact List.mem_map.mpr ⟨.callExpression, by decide +kernel, rfl⟩

end Pipeline

end ScriptFeatures
