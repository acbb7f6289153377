import ScriptFeatures.Proofs.Json.Document
import ScriptFeatures.Proofs.Lexical.Vocabulary
import ScriptFeatures.Proofs.Lexical.Weight
import ScriptFeatures.Proofs.Pipeline.BundleFile
import ScriptFeatures.Proofs.Pipeline.FitTransform

/-! A saved bundle is loaded as it was, and fitting leaves bundles behind that can be saved.

* `Storable`: what a bundle has to satisfy to be kept in a file.
* `Storable.loadBytes_save_eq`: such a bundle is loaded as it was if its weights are read back from
  their digits.
* `storable_of_fit`: a bundle that was fitted is such a bundle. Its vocabulary was fitted on the
  texts of the batch, whatever columns the table had. -/

namespace ScriptFeatures.Pipeline

open Calendar (Moment)
open Config (PipelineConfig)
open Json (Number)
open Lexical (Vectorizer)
open Table (FeatureTable Sample)

/-! ## Bundles in files -/

namespace Bundle

/-- A bundle that can be kept in a file: it has the current version and the fingerprint of its
schema, it was made in a year of at most four digits, and its vocabulary has numbers as weights
and a table of places that belongs to its terms. -/
structure Storable (b : Bundle) : Prop where
  version_eq : b.version = bundleVersion
  fingerprint_eq : b.fingerprint = b.schema.fingerprint
  moment : b.createdAt.isValid = true
  year_nonneg : 0 ≤ b.createdAt.year
  year_le : b.createdAt.year ≤ 9999
  finite : ∀ v ∈ b.vectorizer, ∀ w ∈ v.idf, w.isFinite = true
  documents_lt : ∀ v ∈ b.vectorizer, v.documents < UInt64.size
  indexed : ∀ v ∈ b.vectorizer, v.index = v

/-- The weights of a bundle are read back from their digits. -/
def ReadsBack (b : Bundle) : Prop :=
  ∀ v ∈ b.vectorizer, ∀ w ∈ v.idf, Number.ReadsBack w

theorem Storable.loadable {b : Bundle} (h : b.Storable) (hback : b.ReadsBack) : b.Loadable where
  version_lt := by
    rw [h.version_eq]
    decide
  moment := h.moment
  year_nonneg := h.year_nonneg
  year_le := h.year_le
  vectorizer v hv :=
    { finite := h.finite v hv
      readable := fun w hw => (hback v hv w hw).readable
      documents_lt := h.documents_lt v hv }
  version_eq := h.version_eq
  fingerprint_eq := h.fingerprint_eq

theorem ReadsBack.index_reread {b : Bundle} (hback : b.ReadsBack) {v : Vectorizer}
    (hv : v ∈ b.vectorizer) : v.reread.index = v.index := by
  have hidf : v.idf.map Number.reread = v.idf :=
    (List.map_congr_left fun w hw => (hback v hv w hw).reread_eq).trans (List.map_id' _)
  rw [Vectorizer.reread, hidf]
  rfl

theorem Storable.loadBytes_save_eq {b : Bundle} (h : b.Storable) (hback : b.ReadsBack) :
    loadBytes (Text.encode b.save) = .ok b := by
  have hvectorizer : (b.vectorizer.map fun v => v.reread.index) = b.vectorizer := by
    have hself : ∀ v ∈ b.vectorizer, v.reread.index = v := fun v hv =>
      (hback.index_reread hv).trans (h.indexed v hv)
    exact (Option.map_congr hself).trans Option.map_id_apply
  rw [(h.loadable hback).loadBytes_save, hvectorizer]

end Bundle

/-! ## Fitted bundles -/

section

variable {config : PipelineConfig} {samples : List Sample}

/-- A fitting on some samples: they are the rows of its table, and its vocabulary was fitted on
their texts. -/
structure Fitting.On (config : PipelineConfig) (samples : List Sample) (f : Fitting) : Prop where
  samples_eq : f.table.samples = samples
  vectorizer_eq : ∀ v ∈ f.vectorizer, v = fittedVocabulary config (samples.map Sample.text)

theorem Fitting.On.texts_eq {f : Fitting} (h : f.On config samples) :
    f.table.texts = samples.map Sample.text :=
  congrArg (List.map Sample.text) h.samples_eq

theorem Fitting.On.step {f g : Fitting} (hf : f.On config samples) {s : Strategy}
    (h : Fitting.step config f s = .ok g) : g.On config samples := by
  cases s with
  | statistical =>
    obtain ⟨t, ht, hg⟩ := Outcome.bind_eq_ok_iff.mp h
    cases hg
    exact ⟨(FeatureTable.pushAll_samples ht).trans hf.samples_eq, hf.vectorizer_eq⟩
  | lexical =>
    obtain ⟨⟨t, v⟩, htv, hg⟩ := Outcome.bind_eq_ok_iff.mp h
    obtain ⟨u, hu, htv⟩ := Outcome.bind_eq_ok_iff.mp htv
    cases htv
    cases hg
    refine ⟨(FeatureTable.pushAll_samples hu).trans hf.samples_eq, ?_⟩
    rintro _ ⟨⟩
    rw [hf.texts_eq, fittedVocabulary]
  | syntactic =>
    obtain ⟨⟨t, report⟩, ht, hg⟩ := Outcome.bind_eq_ok_iff.mp h
    obtain ⟨u, hu, ht⟩ := Outcome.bind_eq_ok_iff.mp ht
    cases ht
    cases hg
    exact ⟨(FeatureTable.pushAll_samples hu).trans hf.samples_eq, hf.vectorizer_eq⟩

/-- What a fit returns is the bundle of a fitting on the samples of its table. -/
theorem exists_fitting_of_fit {now : Moment} {t out : FeatureTable} {b : Bundle}
    (h : fit config now t = .ok (out, b)) :
    ∃ f : Fitting, f.On config t.samples ∧
      b = .new now config.strategies f.vectorizer f.taxonomy (.ofTable f.table none) := by
  obtain ⟨f, hf, hb⟩ := Outcome.bind_eq_ok_iff.mp h
  rw [Outcome.mapError_eq_ok_iff] at hf
  have hstart : Fitting.On config t.samples ⟨t, none, none⟩ := ⟨rfl, nofun⟩
  cases hb
  exact ⟨f, Outcome.foldlM_invariant _ (fun _ _ _ hf hs => hf.step hs) hf hstart, rfl⟩

/-- A fitted bundle can be kept in a file, if its time can be written and logarithms are numbers
where fitting takes them. -/
theorem storable_of_fit {now : Moment} {t out : FeatureTable} {b : Bundle}
    (h : fit config now t = .ok (out, b)) (hvalid : now.isValid = true) (hlow : 0 ≤ now.year)
    (hhigh : now.year ≤ 9999) (hsize : t.size < UInt64.size)
    (hlog : ∀ x ∈ Vectorizer.quotients config.lexical t.texts,
      x.isFinite = true → 0 < x → x.log.isFinite = true) : b.Storable := by
  obtain ⟨f, hf, rfl⟩ := exists_fitting_of_fit h
  have hlength : t.texts.length < UInt64.size := by
    rw [FeatureTable.texts, List.length_map]
    exact hsize
  exact
    { version_eq := rfl
      fingerprint_eq := rfl
      moment := hvalid
      year_nonneg := hlow
      year_le := hhigh
      finite := fun v hv => by
        rw [hf.vectorizer_eq v hv]
        exact Vectorizer.isFinite_idf_fit hlength hlog
      documents_lt := fun v hv => by
        rw [hf.vectorizer_eq v hv]
        exact hlength
      indexed := fun v hv => by
        rw [hf.vectorizer_eq v hv]
        rfl }

/-- The weights of a fitted bundle are those of its quotients. -/
theorem readsBack_of_fit {now : Moment} {t out : FeatureTable} {b : Bundle}
    (h : fit config now t = .ok (out, b))
    (hback : ∀ x ∈ Vectorizer.quotients config.lexical t.texts,
      Number.ReadsBack (x.log + 1.0)) : b.ReadsBack := by
  obtain ⟨f, hf, rfl⟩ := exists_fitting_of_fit h
  intro v hv w hw
  rw [hf.vectorizer_eq v hv, fittedVocabulary, Vectorizer.idf_fit] at hw
  obtain ⟨x, hx, rfl⟩ := List.mem_map.mp hw
  exact hback x hx

end

/-! ## The main result -/

/-- A bundle whose weights are read back from their digits is loaded as it was saved, with the
places of its terms, if it can be kept in a file. This includes every bundle that fitting returns
at a time that can be written; logarithms of positive numbers are taken to be numbers. -/
theorem loadBytes_saved (b : Bundle) (hback : b.ReadsBack) :
    (b.Storable → Bundle.loadBytes (Text.encode b.save) = .ok b) ∧
    ∀ (config : PipelineConfig) (now : Moment) (t out : FeatureTable),
      fit config now t = .ok (out, b) → now.isValid = true → 0 ≤ now.year → now.year ≤ 9999 →
      t.size < UInt64.size →
      (∀ x ∈ Vectorizer.quotients config.lexical t.texts,
        x.isFinite = true → 0 < x → x.log.isFinite = true) →
      Bundle.loadBytes (Text.encode b.save) = .ok b := by
  refine ⟨fun h => h.loadBytes_save_eq hback, ?_⟩
  intro config now t out hfit hvalid hlow hhigh hsize hlog
  exact (storable_of_fit hfit hvalid hlow hhigh hsize hlog).loadBytes_save_eq hback

/-- A bundle of all strategies with every optional part. Its terms and columns have characters that
are escaped, and some that take more than one byte. -/
def fullBundle : Bundle :=
  .new ⟨2024, 2, 29, 23, 59, 58, 120000000⟩ ⟨true, true, true⟩
    (some (Vectorizer.index ⟨["\"\n", "größe"], [1.0, 1.2876820724517808], true, false, 3, ∅⟩))
    (some [.program, .ifStatement])
    ⟨[⟨.statistical, "js_length"⟩, ⟨.lexical, "\"\n"⟩, ⟨.lexical, "größe"⟩, ⟨.syntactic, "\\\t"⟩]⟩

theorem readsBack_one : Number.ReadsBack 1.0 := by
  refine .of_numeral (n := ⟨false, [1], [0], none⟩) rfl ?_
  have hlower : Decimal.lower (10 : Nat).toUInt64.toFloat 1 = 1.0 :=
    (Number.lower_of_le _ (by decide)).trans (by decide +kernel)
  exact congrArg (fun x => some (Number.real x)) hlower

theorem fullBundle_readsBack : fullBundle.ReadsBack := by
  have hmany : Number.ReadsBack 1.2876820724517808 := by
    refine .of_numeral (n := ⟨false, [1], [2, 8, 7, 6, 8, 2, 0, 7, 2, 4, 5, 1, 7, 8, 0, 8], none⟩)
      (by rfl) ?_
    have hlower :
        Decimal.lower (12876820724517808 : Nat).toUInt64.toFloat 16 = 1.2876820724517808 :=
      (Number.lower_of_le _ (by decide)).trans (by decide +kernel)
    exact congrArg (fun x => some (Number.real x)) hlower
  rintro _ ⟨⟩ w hw
  obtain rfl | rfl : w = 1.0 ∨ w = 1.2876820724517808 := by simpa [Vectorizer.index] using hw
  · exact readsBack_one
  · exact hmany

theorem fullBundle_storable : fullBundle.Storable where
  version_eq := rfl
  fingerprint_eq := rfl
  moment := by decide
  year_nonneg := by decide
  year_le := by decide
  finite := by
    rintro _ ⟨⟩ w hw
    obtain rfl | rfl : w = 1.0 ∨ w = 1.2876820724517808 := by simpa [Vectorizer.index] using hw
    · rfl
    · decide +kernel
  documents_lt := by
    rintro _ ⟨⟩
    decide
  indexed := by
    rintro _ ⟨⟩
    rfl

/-- A full bundle, the bundle of a fit on two scripts that are too few for a vocabulary with terms,
and the bundle of a fit that keeps the term of both scripts. Its weight is `1 + log 1`. -/
theorem loadBytes_saved_full :
    let config : PipelineConfig := { strategies := ⟨true, true, true⟩ }
    let keeping : PipelineConfig := { config with lexical := { minimum := 2, maximum := 1.0 } }
    let now : Moment := ⟨2024, 2, 29, 12, 0, 0, 0⟩
    let t : FeatureTable := .ofSamples [.ofScript "eval(unescape(a))", .ofScript "if (eval("]
    fullBundle.Storable ∧ fullBundle.ReadsBack ∧
    Bundle.loadBytes (Text.encode fullBundle.save) = .ok fullBundle ∧
    (∃ out b, fit config now t = .ok (out, b) ∧
      Bundle.loadBytes (Text.encode b.save) = .ok b) ∧
    ∃ out b v, fit keeping now t = .ok (out, b) ∧ b.vectorizer = some v ∧ "eval" ∈ v.terms ∧
      (Float.log 1.0 = 0.0 → Bundle.loadBytes (Text.encode b.save) = .ok b) := by
  intro config keeping now t
  refine ⟨fullBundle_storable, fullBundle_readsBack,
    (loadBytes_saved _ fullBundle_readsBack).1 fullBundle_storable, ?_, ?_⟩
  · have hquotients : Vectorizer.quotients config.lexical t.texts = [] :=
      Vectorizer.quotients_eq_nil (by decide)
    have hnone : ∀ x, x ∉ Vectorizer.quotients config.lexical t.texts :=
      List.eq_nil_iff_forall_not_mem.mp hquotients
    have hfit := fit_ofSamples config now t.samples
    have hback := readsBack_of_fit hfit fun x hx => absurd hx (hnone x)
    exact ⟨_, _, hfit, (loadBytes_saved _ hback).2 config now t _ hfit (by decide) (by decide)
      (by decide) (by decide) fun x hx => absurd hx (hnone x)⟩
  · have hquotient : ∀ x ∈ Vectorizer.quotients keeping.lexical t.texts, x = 1.0 := by
      intro x hx
      obtain ⟨count, hminimum, hcount, rfl⟩ := Vectorizer.exists_of_mem_quotients hx
      obtain rfl : count = 2 := Nat.le_antisymm hcount hminimum
      decide +kernel
    have hterm : "eval" ∈ (Vectorizer.fit keeping.lexical t.texts).terms :=
      (Vectorizer.mem_terms_fit _ _).mpr ⟨by decide +kernel, by decide +kernel, by decide +kernel⟩
    have hfit := fit_ofSamples keeping now t.samples
    refine ⟨_, _, _, hfit, rfl, hterm, fun hlog => ?_⟩
    have hback := readsBack_of_fit hfit fun x hx => by
      have hweight : (0.0 : Float) + 1.0 = 1.0 := by decide +kernel
      rw [hquotient x hx, hlog, hweight]
      exact readsBack_one
    refine (loadBytes_saved _ hback).2 keeping now t _ hfit (by decide) (by decide) (by decide)
      (by decide) fun x hx _ _ => ?_
    rw [hquotient x hx, hlog]
    decide +kernel

end ScriptFeatures.Pipeline
