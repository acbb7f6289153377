import Mathlib.Data.List.Basic
import ScriptFeatures.Proofs.Pipeline.BundleFile

/-! What a fingerprint tells apart. The bytes that are digested are the texts of the keys, each with
a line feed after it, so they determine the lines of these texts and nothing else. A name may hold a
line feed itself, and then schemas of different columns can have the same lines; schemas whose names
hold none are told apart. -/

namespace ScriptFeatures

open Table (Group Key)

namespace Schema.ReferenceSchema

/-! ## Lines -/

/-- The lines of the texts of the keys. A name with line feeds gives more than one. -/
def lines (s : ReferenceSchema) : List (List Char) :=
  s.columns.flatMap fun key => key.text.toList.splitOn '\n'

/-- The text whose bytes are digested. -/
def text (s : ReferenceSchema) : List Char :=
  s.columns.flatMap fun key => key.text.toList ++ ['\n']

/-- The names of a schema hold no line feed. -/
def Unbroken (s : ReferenceSchema) : Prop :=
  ∀ key ∈ s.columns, '\n' ∉ key.name.toList

theorem bytes_eq (s : ReferenceSchema) : s.bytes = Text.encode (String.ofList s.text) := by
  rw [Text.encode, Text.toUTF8_ofList, bytes, text, List.flatMap_assoc]
  refine congrArg (List.flatMap · s.columns) (funext fun key => ?_)
  rw [List.flatMap_append, ← Text.toUTF8_ofList, String.ofList_toList]
  rfl

theorem splitOn_text (s : ReferenceSchema) : s.text.splitOn '\n' = s.lines ++ [[]] := by
  obtain ⟨columns⟩ := s
  induction columns with
  | nil => rfl
  | cons key columns ih =>
    change ((key.text.toList ++ ['\n']) ++ text ⟨columns⟩).splitOn '\n' =
      (key.text.toList.splitOn '\n' ++ lines ⟨columns⟩) ++ [[]]
    rw [List.append_assoc, List.singleton_append, List.splitOn_append_cons_self, ih,
      List.append_assoc]

theorem text_eq_iff (s t : ReferenceSchema) : s.text = t.text ↔ s.lines = t.lines := by
  constructor
  · intro h
    have hsplit := congrArg (List.splitOn '\n') h
    rw [splitOn_text, splitOn_text] at hsplit
    exact List.append_cancel_right hsplit
  · intro h
    have hs : ['\n'].intercalate (s.text.splitOn '\n') = s.text := List.intercalate_splitOn _
    have ht : ['\n'].intercalate (t.text.splitOn '\n') = t.text := List.intercalate_splitOn _
    rw [← hs, ← ht, splitOn_text, splitOn_text, h]

theorem bytes_eq_iff (s t : ReferenceSchema) : s.bytes = t.bytes ↔ s.lines = t.lines := by
  rw [← text_eq_iff, bytes_eq, bytes_eq]
  constructor
  · intro h
    have hdecode := congrArg Text.decode? h
    rw [Text.decode?_encode, Text.decode?_encode, Option.some.injEq] at hdecode
    exact String.ofList_injective hdecode
  · intro h
    rw [h]

theorem Unbroken.lines_eq {s : ReferenceSchema} (h : s.Unbroken) :
    s.lines = s.columns.map fun key => key.text.toList := by
  rw [lines, List.map_eq_flatMap]
  refine List.flatMap_congr fun key hkey => List.splitOn_eq_singleton ?_
  have hlabel : '\n' ∉ key.group.label.toList := by
    cases key.group <;> decide
  rw [Key.toList_text, List.mem_append, List.mem_cons]
  rintro (hmem | hmem | hmem)
  · exact hlabel hmem
  · exact nomatch hmem
  · exact h key hkey hmem

theorem Unbroken.lines_eq_iff {s t : ReferenceSchema} (hs : s.Unbroken) (ht : t.Unbroken) :
    s.lines = t.lines ↔ s = t := by
  constructor
  · intro h
    rw [hs.lines_eq, ht.lines_eq] at h
    obtain ⟨columns⟩ := s
    obtain ⟨columns'⟩ := t
    have hinjective : Function.Injective fun key : Key => key.text.toList := fun k l hkl =>
      Key.text_injective (String.toList_injective hkl)
    exact congrArg ReferenceSchema.mk (List.map_injective_iff.mpr hinjective h)
  · rintro rfl
    rfl

end Schema.ReferenceSchema

namespace Pipeline.Bundle

open Schema (ReferenceSchema)

/-! ## Replaced schemas -/

/-- A bundle with another schema under the fingerprint that it had. -/
def withSchema (b : Bundle) (s : ReferenceSchema) : Bundle :=
  { b with schema := s }

theorem Loadable.loadBytes_withSchema {b : Bundle} (h : b.Loadable) (s : ReferenceSchema) :
    loadBytes (Text.encode (b.withSchema s).save) =
      if s.fingerprint = b.fingerprint then
        .ok { b.withSchema s with vectorizer := b.vectorizer.map fun v => v.reread.index }
      else .error (.fingerprintMismatch b.fingerprint s.fingerprint) := by
  have hwritable : (b.withSchema s).Writable := { h with }
  have hversion : (b.withSchema s).version = bundleVersion := h.version_eq
  rw [hwritable.loadBytes_save, if_neg (not_not_intro hversion)]
  change (if s.fingerprint ≠ b.fingerprint then _ else _) = _
  by_cases heq : s.fingerprint = b.fingerprint
  · rw [if_neg (not_not_intro heq), if_pos heq]
    rfl
  · rw [if_pos heq, if_neg heq]
    rfl

/-- A bundle without a vocabulary, made in an ordinary year, can be loaded. -/
theorem loadable_new {createdAt : Calendar.Moment} (hvalid : createdAt.isValid = true)
    (hlow : 0 ≤ createdAt.year) (hhigh : createdAt.year ≤ 9999) (strategies : Strategies)
    (taxonomy : Option (List Tree.NodeKind)) (s : ReferenceSchema) :
    (Bundle.new createdAt strategies none taxonomy s).Loadable where
  version_lt := (by decide : bundleVersion < UInt32.size)
  moment := hvalid
  year_nonneg := hlow
  year_le := hhigh
  vectorizer := nofun
  version_eq := rfl
  fingerprint_eq := rfl

/-- A fingerprint tells schemas apart by the lines of their keys: the digested bytes are the same
if the lines are. Different schemas whose names hold no line feed are told apart. If no other bytes
with the digest of a bundle's schema come up, loading refuses the bundle with a schema of other
lines, and accepts it with a schema of the same lines. -/
theorem fingerprint_separates_lines (s t : ReferenceSchema) :
    (s.bytes = t.bytes ↔ s.lines = t.lines) ∧
    (s.Unbroken → t.Unbroken → s ≠ t → s.bytes ≠ t.bytes) ∧
    ∀ b : Bundle, b.Loadable → b.schema = t →
      (Digest.sha256 s.bytes = Digest.sha256 t.bytes → s.bytes = t.bytes) →
      loadBytes (Text.encode (b.withSchema s).save) =
        if s.lines = t.lines then
          .ok { b.withSchema s with vectorizer := b.vectorizer.map fun v => v.reread.index }
        else .error (.fingerprintMismatch b.fingerprint s.fingerprint) := by
  have hiff := ReferenceSchema.bytes_eq_iff s t
  refine ⟨hiff, ?_, ?_⟩
  · intro hs ht hne hbytes
    exact hne ((hs.lines_eq_iff ht).mp (hiff.mp hbytes))
  · rintro b hb rfl hcollision
    have hfingerprint : s.fingerprint = b.fingerprint ↔ s.lines = b.schema.lines := by
      rw [hb.fingerprint_eq, ← hiff]
      exact ⟨hcollision, congrArg Digest.sha256⟩
    rw [hb.loadBytes_withSchema]
    simp only [hfingerprint]

/-- A bundle with two lexical columns. -/
def lexicalPair : Bundle :=
  .new ⟨2024, 2, 29, 12, 0, 0, 0⟩ .none none none ⟨[⟨.lexical, "a"⟩, ⟨.lexical, "b"⟩]⟩

theorem lexicalPair_loadable : lexicalPair.Loadable :=
  loadable_new (by decide) (by decide) (by decide) _ _ _

/-- The two columns are exchanged, which loading notices. -/
theorem fingerprint_separates_lines_reorder :
    let s : ReferenceSchema := ⟨[⟨.lexical, "b"⟩, ⟨.lexical, "a"⟩]⟩
    s.Unbroken ∧ lexicalPair.schema.Unbroken ∧ s ≠ lexicalPair.schema ∧
    s.bytes ≠ lexicalPair.schema.bytes ∧ lexicalPair.Loadable ∧
    Digest.sha256 s.bytes ≠ Digest.sha256 lexicalPair.schema.bytes ∧
    loadBytes (Text.encode (lexicalPair.withSchema s).save) =
      .error (.fingerprintMismatch lexicalPair.fingerprint s.fingerprint) := by
  intro s
  have hs : s.Unbroken := by
    unfold ReferenceSchema.Unbroken
    decide
  have hpair : lexicalPair.schema.Unbroken := by
    unfold ReferenceSchema.Unbroken
    decide
  have hne : s ≠ lexicalPair.schema := by decide
  have hdigest : Digest.sha256 s.bytes ≠ Digest.sha256 lexicalPair.schema.bytes := by
    decide +kernel
  obtain ⟨-, hseparate, hreplace⟩ := fingerprint_separates_lines s lexicalPair.schema
  have hload := hreplace lexicalPair lexicalPair_loadable rfl fun h => absurd h hdigest
  rw [if_neg fun h => hne ((hs.lines_eq_iff hpair).mp h)] at hload
  exact ⟨hs, hpair, hne, hseparate hs hpair hne, lexicalPair_loadable, hdigest, hload⟩

/-- One column whose name goes on in a second line stands in for the two columns, which loading does
not notice. -/
theorem fingerprint_collision :
    let s : ReferenceSchema := ⟨[⟨.lexical, "a\nlexical:b"⟩]⟩
    s ≠ lexicalPair.schema ∧ s.bytes = lexicalPair.schema.bytes ∧
    loadBytes (Text.encode (lexicalPair.withSchema s).save) = .ok (lexicalPair.withSchema s) := by
  intro s
  have hlines : s.lines = lexicalPair.schema.lines := by decide +kernel
  have hbytes := (ReferenceSchema.bytes_eq_iff s lexicalPair.schema).mpr hlines
  have hload := lexicalPair_loadable.loadBytes_withSchema s
  have hfingerprint : s.fingerprint = lexicalPair.fingerprint :=
    congrArg Digest.sha256 hbytes
  rw [if_pos hfingerprint] at hload
  exact ⟨by decide, hbytes, hload⟩

end Pipeline.Bundle

end ScriptFeatures
