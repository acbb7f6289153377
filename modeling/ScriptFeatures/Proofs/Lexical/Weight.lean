import ScriptFeatures.Lexical.Vectorizer
import ScriptFeatures.Proofs.Binary64.Arithmetic
import ScriptFeatures.Proofs.Text.Tally

/-! The weights of a fitted vocabulary are finite. A term stands in at most as many documents as
there are, so a weight is one more than the logarithm of a quotient of two positive numbers of
moderate size. -/

namespace ScriptFeatures.Lexical.Vectorizer

open Binary64

theorem count_le_of_mem_documentCounts {lowercase : Bool} {docs : List String}
    {entry : String × Nat} (h : entry ∈ documentCounts lowercase docs) :
    entry.2 ≤ docs.length := by
  rw [Text.tally_count h]
  clear h
  induction docs with
  | nil => exact Nat.le_refl 0
  | cons doc docs ih =>
    have hdistinct : (Text.distinct (Text.tokenize lowercase doc)).Nodup := Text.tally_nodup _
    have hone := List.nodup_iff_count_le_one.mp hdistinct entry.1
    rw [List.flatMap_cons, List.count_append, List.length_cons]
    omega

theorem normal_one_add {n : Nat} (h : n < UInt64.size) :
    Normal (-52) 16 (1.0 + n.toFloat).toModel.unpack := by
  have hone : Normal (-52) 14 (1.0 : Float).toModel.unpack :=
    normal_one.mono (by decide) (by decide)
  obtain rfl | hpos := Nat.eq_zero_or_pos n
  · exact ⟨2 ^ 52, -52, by decide, rfl, by decide, by decide, by decide⟩
  · exact (hone.add (normal_toFloat hpos h) (by decide)).pack (by decide) (by decide)

theorem quotient_normal {documents count : Nat} (hdocuments : documents < UInt64.size)
    (hcount : count < UInt64.size) :
    Normal (-121) 17 ((1.0 + documents.toFloat) / (1.0 + count.toFloat)).toModel.unpack :=
  ((normal_one_add hdocuments).div (normal_one_add hcount) (by decide)).pack (by decide) (by decide)

/-- The numbers of which fitting takes the logarithms: for each term of the vocabulary, the number
of documents by the number of those that contain it, both smoothed by one. -/
def quotients (config : Config.LexicalConfig) (docs : List String) : List Float :=
  ((documentCounts config.lowercase docs).filter fun entry =>
    decide (config.minimum ≤ entry.2) &&
      entry.2.toFloat ≤ config.maximum * docs.length.toFloat).map fun entry =>
    (1.0 + docs.length.toFloat) / (1.0 + entry.2.toFloat)

theorem idf_fit (config : Config.LexicalConfig) (docs : List String) :
    (fit config docs).idf = (quotients config docs).map fun x => x.log + 1.0 := by
  rw [quotients, List.map_map]
  rfl

theorem exists_of_mem_quotients {config : Config.LexicalConfig} {docs : List String} {x : Float}
    (h : x ∈ quotients config docs) :
    ∃ count, config.minimum ≤ count ∧ count ≤ docs.length ∧
      x = (1.0 + docs.length.toFloat) / (1.0 + count.toFloat) := by
  obtain ⟨entry, hentry, rfl⟩ := List.mem_map.mp h
  obtain ⟨hcounted, hkept⟩ := List.mem_filter.mp hentry
  exact ⟨entry.2, of_decide_eq_true (Bool.and_eq_true_iff.mp hkept).1,
    count_le_of_mem_documentCounts hcounted, rfl⟩

/-- The weights of a vocabulary that was fitted on fewer than `2 ^ 64` documents are finite, if the
logarithm of a positive finite number is, for those of which it is taken. -/
theorem isFinite_idf_fit {config : Config.LexicalConfig} {docs : List String}
    (hsize : docs.length < UInt64.size)
    (hlog : ∀ x ∈ quotients config docs, x.isFinite = true → 0 < x → x.log.isFinite = true) :
    ∀ w ∈ (fit config docs).idf, w.isFinite = true := by
  rw [idf_fit]
  intro w hw
  obtain ⟨x, hx, rfl⟩ := List.mem_map.mp hw
  obtain ⟨count, -, hcount, rfl⟩ := exists_of_mem_quotients hx
  have hnormal := quotient_normal hsize (Nat.lt_of_le_of_lt hcount hsize)
  exact isFinite_add_one (hlog _ hx hnormal.isFinite hnormal.pos)

/-- A term has to stand in `minimum` documents, so fewer documents give no vocabulary. -/
theorem quotients_eq_nil {config : Config.LexicalConfig} {docs : List String}
    (h : docs.length < config.minimum) : quotients config docs = [] := by
  refine List.eq_nil_iff_forall_not_mem.mpr fun x hx => ?_
  obtain ⟨count, hminimum, hcount, -⟩ := exists_of_mem_quotients hx
  omega

end ScriptFeatures.Lexical.Vectorizer
