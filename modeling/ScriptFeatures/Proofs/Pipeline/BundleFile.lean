import ScriptFeatures.Pipeline.Bundle
import ScriptFeatures.Proofs.Calendar.Moment
import ScriptFeatures.Proofs.Json.Members
import ScriptFeatures.Proofs.Text.Bytes
import ScriptFeatures.Proofs.Tree.Walk

/-! Bundles survive being saved and loaded. Each part of a bundle has a reader that takes its JSON
back; the members of the object that a bundle is written as fill the fields of a blank bundle one
after the other, whether the optional ones are among them or not. -/

namespace ScriptFeatures

open Json (Reads Fills Number)

/-! ## Names -/

theorem Table.Group.ofLabel?_label (g : Group) : ofLabel? g.label = some g := by
  cases g <;> rfl

theorem Tree.NodeKind.ofLabel?_label (k : NodeKind) : ofLabel? k.label = some k := by
  have hall : ∀ k ∈ all, ofLabel? k.label = some k := by decide +kernel
  exact hall k k.mem_all

theorem Pipeline.Strategy.reads (s : Strategy) : Reads Strategy.read (.text s.label) s := by
  refine Reads.name ?_
  cases s <;> rfl

/-! ## Parts of a bundle -/

theorem Table.Key.reads (k : Key) : Reads Key.read k.toJson k :=
  .record
    (.cons rfl rfl ((Reads.name k.group.ofLabel?_label).map _)
      (.cons rfl rfl ((Reads.text k.name).map _) (.nil _)))
    rfl

theorem Schema.ReferenceSchema.reads (s : ReferenceSchema) :
    Reads ReferenceSchema.read s.toJson s :=
  .record (.cons rfl rfl ((Reads.list fun k _ => k.reads).map _) (.nil _)) rfl

theorem Pipeline.Strategies.ofList_toList (set : Strategies) : ofList set.toList = set := by
  obtain ⟨statistical, lexical, syntactic⟩ := set
  cases statistical <;> cases lexical <;> cases syntactic <;> rfl

theorem Pipeline.Strategies.reads (set : Strategies) :
    Reads Strategies.read set.toJson set := by
  have h := (Reads.list fun s (_ : s ∈ set.toList) => Strategy.reads s).map ofList
  rwa [ofList_toList] at h

namespace Lexical.Vectorizer

/-- A vocabulary that JSON can hold: its weights are numbers, and its number of documents fits 64
bits. -/
structure Writable (v : Vectorizer) : Prop where
  finite : ∀ w ∈ v.idf, w.isFinite = true
  readable : ∀ w ∈ v.idf, Number.Readable w
  documents_lt : v.documents < UInt64.size

/-- A vocabulary as its text gives it: the weights are read from their digits, and there is no table
of places. -/
def reread (v : Vectorizer) : Vectorizer :=
  { v with idf := v.idf.map Number.reread, lookup := ∅ }

theorem Writable.reads {v : Vectorizer} (h : v.Writable) :
    Reads Vectorizer.read v.toJson v.reread :=
  .record
    (.cons rfl rfl ((Reads.list fun s (_ : s ∈ v.terms) => Reads.text s).map _)
      (.cons rfl rfl
        ((Reads.items fun w hw => Reads.real (h.finite w hw) (h.readable w hw)).map _)
        (.cons rfl rfl ((Reads.boolean v.sublinear).map _)
          (.cons rfl rfl ((Reads.boolean v.lowercase).map _)
            (.cons rfl rfl ((Reads.natural h.documents_lt (Nat.le_refl _)).map _) (.nil _))))))
    rfl

end Lexical.Vectorizer

theorem Pipeline.readMoment_text {m : Calendar.Moment} (hvalid : m.isValid = true)
    (hlow : 0 ≤ m.year) (hhigh : m.year ≤ 9999) :
    Reads readMoment (.text (m.text "Z")) m :=
  .scalar (.text _) (Calendar.Moment.parse?_text hvalid hlow hhigh)

/-! ## Bundles -/

namespace Pipeline.Bundle

open Lexical (Vectorizer)

/-- A bundle that has a text: its version fits 32 bits, the year of its making has four digits, and
its vocabulary can be written. -/
structure Writable (b : Bundle) : Prop where
  version_lt : b.version < UInt32.size
  moment : b.createdAt.isValid = true
  year_nonneg : 0 ≤ b.createdAt.year
  year_le : b.createdAt.year ≤ 9999
  vectorizer : ∀ v ∈ b.vectorizer, v.Writable

theorem Writable.reads {b : Bundle} (h : b.Writable) :
    Reads Bundle.read b.toJson { b with vectorizer := b.vectorizer.map Vectorizer.reread } := by
  obtain ⟨version, createdAt, strategies, vectorizer, taxonomy, schema, fingerprint⟩ := b
  have hversion := Reads.natural h.version_lt (by decide)
  have hmoment := readMoment_text h.moment h.year_nonneg h.year_le
  have hstrategies := strategies.reads
  have hschema := schema.reads
  have hfingerprint := Reads.text fingerprint
  have hvectorizer : ∀ v ∈ vectorizer, Reads (Json.optional Vectorizer.read) v.toJson
      (some v.reread) := fun v hv =>
    (h.vectorizer v hv).reads.optional (c := '{') (by decide)
      fun layout rest => Json.Value.write_object layout _ rest
  have htaxonomy : ∀ kinds ∈ taxonomy, Reads (Json.optional (Json.listOf readKind))
      (.array (kinds.map fun kind => .text kind.label)) (some kinds) := fun kinds _ =>
    (Reads.list fun kind _ => Reads.name kind.ofLabel?_label).optional (c := '[') (by decide)
      fun layout rest => Json.Value.write_array layout _ rest
  -- which members the object has depends on the two optional parts, and the blank bundle has none
  cases vectorizer with
  | none =>
    cases taxonomy with
    | none =>
      exact .record (.cons rfl rfl (hversion.map _) (.cons rfl rfl (hmoment.map _)
        (.cons rfl rfl (hstrategies.map _) (.cons rfl rfl (hschema.map _)
          (.cons rfl rfl (hfingerprint.map _) (.nil _)))))) rfl
    | some kinds =>
      exact .record (.cons rfl rfl (hversion.map _) (.cons rfl rfl (hmoment.map _)
        (.cons rfl rfl (hstrategies.map _) (.cons rfl rfl ((htaxonomy kinds rfl).map _)
          (.cons rfl rfl (hschema.map _) (.cons rfl rfl (hfingerprint.map _) (.nil _))))))) rfl
  | some v =>
    cases taxonomy with
    | none =>
      exact .record (.cons rfl rfl (hversion.map _) (.cons rfl rfl (hmoment.map _)
        (.cons rfl rfl (hstrategies.map _) (.cons rfl rfl ((hvectorizer v rfl).map _)
          (.cons rfl rfl (hschema.map _) (.cons rfl rfl (hfingerprint.map _) (.nil _))))))) rfl
    | some kinds =>
      exact .record (.cons rfl rfl (hversion.map _) (.cons rfl rfl (hmoment.map _)
        (.cons rfl rfl (hstrategies.map _) (.cons rfl rfl ((hvectorizer v rfl).map _)
          (.cons rfl rfl ((htaxonomy kinds rfl).map _) (.cons rfl rfl (hschema.map _)
            (.cons rfl rfl (hfingerprint.map _) (.nil _)))))))) rfl

/-- What loading makes of the file of a bundle: two checks, and a table of places for the vocabulary
that was read. -/
theorem Writable.loadBytes_save {b : Bundle} (h : b.Writable) :
    loadBytes (Text.encode b.save) =
      if b.version ≠ bundleVersion then .error (.unsupportedVersion b.version)
      else if b.schema.fingerprint ≠ b.fingerprint then
        .error (.fingerprintMismatch b.fingerprint b.schema.fingerprint)
      else .ok { b with vectorizer := b.vectorizer.map fun v => v.reread.index } := by
  have hwhole : Bundle.read.whole b.save.toList =
      .ok { b with vectorizer := b.vectorizer.map Vectorizer.reread } := by
    rw [save, Json.Value.indented, String.toList_ofList]
    exact h.reads.whole (.indented 0)
  rw [loadBytes, Text.decode?_encode]
  dsimp only
  rw [load, hwhole]
  dsimp only
  rw [Option.map_map]
  rfl

/-- A bundle that can be written and passes the checks of loading. -/
structure Loadable (b : Bundle) : Prop extends b.Writable where
  version_eq : b.version = bundleVersion
  fingerprint_eq : b.fingerprint = b.schema.fingerprint

theorem Loadable.loadBytes_save {b : Bundle} (h : b.Loadable) :
    loadBytes (Text.encode b.save) =
      .ok { b with vectorizer := b.vectorizer.map fun v => v.reread.index } := by
  rw [h.toWritable.loadBytes_save, if_neg (not_not_intro h.version_eq),
    if_neg (not_not_intro h.fingerprint_eq.symm)]

end Pipeline.Bundle

end ScriptFeatures
