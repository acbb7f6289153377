import Std.Data.TreeMap
import ScriptFeatures.Lexical.Vectorizer
import ScriptFeatures.Proofs.Text.ByteOrder
import ScriptFeatures.Proofs.Text.Tally

/-! The vocabulary that is fitted on documents. Each document counts once for each of the terms that
it has, so what is counted for a term is the number of documents it stands in
(`mem_documentCounts`); one goes through the documents with a tree map of the counts and gets the
same (`toList_countDocuments`). A term belongs to the vocabulary if its number of documents is
within the bounds, and has the weight of that number (`fit_vocabulary`). -/

namespace ScriptFeatures

theorem Text.mem_tally {items : List String} {entry : String × Nat} :
    entry ∈ tally items ↔ entry.1 ∈ items ∧ entry.2 = items.count entry.1 := by
  constructor
  · intro h
    exact ⟨mem_distinct.mp (List.mem_map_of_mem h), tally_count h⟩
  · rintro ⟨hmem, hcount⟩
    obtain ⟨found, hfound, hterm⟩ := List.mem_map.mp (mem_distinct.mpr hmem)
    have heq : found = entry := by
      refine Prod.ext hterm ?_
      rw [hcount, tally_count hfound, hterm]
    exact heq ▸ hfound

namespace Lexical.Vectorizer

/-- The terms of a vocabulary increase in the order of their bytes. -/
def Increasing (v : Vectorizer) : Prop :=
  v.terms.Pairwise fun a b => Text.encode a < Text.encode b

/-- The number of documents that have a term among their tokens. -/
def documentFrequency (lowercase : Bool) (docs : List String) (term : String) : Nat :=
  docs.countP fun doc => decide (term ∈ Text.tokenize lowercase doc)

/-! ## Counting documents -/

section

variable (lowercase : Bool) (docs : List String)

theorem documentFrequency_cons (doc term : String) :
    documentFrequency lowercase (doc :: docs) term =
      documentFrequency lowercase docs term +
        if term ∈ Text.tokenize lowercase doc then 1 else 0 := by
  simp only [documentFrequency, List.countP_cons, decide_eq_true_eq]

/-- A document counts once for a term that it has, whatever the number of times. -/
theorem count_distinct (doc term : String) :
    (Text.distinct (Text.tokenize lowercase doc)).count term =
      if term ∈ Text.tokenize lowercase doc then 1 else 0 := by
  have hnodup : (Text.distinct (Text.tokenize lowercase doc)).Nodup := Text.tally_nodup _
  rw [hnodup.count]
  simp only [Text.mem_distinct]

theorem count_flatMap_distinct (term : String) :
    (docs.flatMap fun doc => Text.distinct (Text.tokenize lowercase doc)).count term =
      documentFrequency lowercase docs term := by
  induction docs with
  | nil => rfl
  | cons doc docs ih =>
    rw [List.flatMap_cons, List.count_append, count_distinct, ih, documentFrequency_cons,
      Nat.add_comm]

/-- Every term that occurs is counted with its number of documents. -/
theorem mem_documentCounts {entry : String × Nat} :
    entry ∈ documentCounts lowercase docs ↔
      1 ≤ documentFrequency lowercase docs entry.1 ∧
        entry.2 = documentFrequency lowercase docs entry.1 := by
  rw [documentCounts, Text.mem_tally, count_flatMap_distinct, ← List.count_pos_iff,
    count_flatMap_distinct]
  rfl

theorem documentCounts_increasing :
    ((documentCounts lowercase docs).map (·.1)).Pairwise fun a b => a < b :=
  (Text.tally_increasing _).imp fun h => Std.lt_iff_le_and_ne.mpr h

end

/-! ## Maps of counts -/

/-- A map of counts, by what it answers for a key: a key with the count zero has no entry. -/
def Counts {κ : Type} (find : κ → Option Nat) (count : κ → Nat) : Prop :=
  ∀ key, find key = if count key = 0 then none else some (count key)

section

variable {κ : Type} {find find' : κ → Option Nat} {count count' : κ → Nat}

theorem Counts.congr (h : Counts find count) (heq : ∀ key, count key = count' key) :
    Counts find count' := by
  have hfun : count = count' := funext heq
  rwa [← hfun]

theorem Counts.eq_some_iff (h : Counts find count) {key : κ} {n : Nat} :
    find key = some n ↔ 1 ≤ count key ∧ n = count key := by
  rw [h]
  by_cases hzero : count key = 0
  · simp [hzero]
  · simp [hzero, Nat.one_le_iff_ne_zero, eq_comm]

/-- Raising the entry of one key by one, or entering one, counts the key once more. -/
theorem Counts.raise [DecidableEq κ] (h : Counts find count) (key : κ)
    (hfind : ∀ k, find' k = if key = k then some ((find key).getD 0 + 1) else find k) :
    Counts find' fun k => count k + if key = k then 1 else 0 := by
  intro k
  rw [hfind, h key, h k]
  by_cases hk : key = k
  · subst hk
    by_cases hzero : count key = 0 <;> simp [hzero]
  · simp [hk]

end

/-! ## Document by document -/

def countTerm (counts : Std.TreeMap String Nat) (term : String) : Std.TreeMap String Nat :=
  counts.alter term fun n => some (n.getD 0 + 1)

/-- Counts a document for each of its terms once. -/
def countDocument (lowercase : Bool) (counts : Std.TreeMap String Nat) (doc : String) :
    Std.TreeMap String Nat :=
  (Text.distinct (Text.tokenize lowercase doc)).foldl countTerm counts

def countDocuments (lowercase : Bool) (docs : List String) : Std.TreeMap String Nat :=
  docs.foldl (countDocument lowercase) ∅

section

variable {counts : Std.TreeMap String Nat} {count : String → Nat}

theorem counts_countTerm (h : Counts (counts[·]?) count) (term : String) :
    Counts ((countTerm counts term)[·]?) fun t => count t + if term = t then 1 else 0 := by
  refine h.raise term fun t => ?_
  rw [countTerm, Std.TreeMap.getElem?_alter]
  simp only [Std.LawfulEqCmp.compare_eq_iff_eq]

theorem counts_foldl_countTerm (h : Counts (counts[·]?) count) (terms : List String) :
    Counts ((terms.foldl countTerm counts)[·]?) fun t => count t + terms.count t := by
  induction terms generalizing counts count with
  | nil => exact h
  | cons term terms ih =>
    refine (ih (counts_countTerm h term)).congr fun t => ?_
    rw [List.count_cons, Nat.add_assoc, Nat.add_comm (List.count t terms)]
    simp only [beq_iff_eq]

theorem counts_countDocument (h : Counts (counts[·]?) count) (lowercase : Bool) (doc : String) :
    Counts ((countDocument lowercase counts doc)[·]?) fun t =>
      count t + if t ∈ Text.tokenize lowercase doc then 1 else 0 := by
  refine (counts_foldl_countTerm h (Text.distinct (Text.tokenize lowercase doc))).congr fun t => ?_
  rw [count_distinct]

theorem counts_foldl_countDocument (h : Counts (counts[·]?) count) (lowercase : Bool)
    (docs : List String) :
    Counts ((docs.foldl (countDocument lowercase) counts)[·]?) fun t =>
      count t + documentFrequency lowercase docs t := by
  induction docs generalizing counts count with
  | nil => exact h
  | cons doc docs ih =>
    refine (ih (counts_countDocument h lowercase doc)).congr fun t => ?_
    rw [documentFrequency_cons]
    omega

theorem counts_countDocuments (lowercase : Bool) (docs : List String) :
    Counts ((countDocuments lowercase docs)[·]?) (documentFrequency lowercase docs) := by
  have hempty : Counts ((∅ : Std.TreeMap String Nat)[·]?) fun _ => 0 := fun _ =>
    Std.TreeMap.getElem?_emptyc
  exact (counts_foldl_countDocument hempty lowercase docs).congr fun _ => Nat.zero_add _

end

theorem nodup_of_increasing {entries : List (String × Nat)}
    (h : entries.Pairwise fun a b => a.1 < b.1) : entries.Nodup := by
  refine h.imp fun {a b} hlt heq => ?_
  subst heq
  exact Std.lt_irrefl hlt

/-- Going through the documents with a map of counts, one gets the counts of all terms in order. -/
theorem toList_countDocuments (lowercase : Bool) (docs : List String) :
    (countDocuments lowercase docs).toList = documentCounts lowercase docs := by
  have hmap : (countDocuments lowercase docs).toList.Pairwise fun a b => a.1 < b.1 := by
    refine Std.TreeMap.ordered_keys_toList.imp fun {a b} h => ?_
    exact compareOfLessAndEq_eq_lt.mp h
  have hlist : (documentCounts lowercase docs).Pairwise fun a b => a.1 < b.1 :=
    List.pairwise_map.mp (documentCounts_increasing lowercase docs)
  have hperm : (countDocuments lowercase docs).toList.Perm (documentCounts lowercase docs) := by
    refine (List.perm_ext_iff_of_nodup (nodup_of_increasing hmap)
      (nodup_of_increasing hlist)).mpr fun entry => ?_
    obtain ⟨term, n⟩ := entry
    rw [Std.TreeMap.mem_toList_iff_getElem?_eq_some, mem_documentCounts]
    exact (counts_countDocuments lowercase docs).eq_some_iff
  refine List.Perm.eq_of_pairwise (fun a b _ _ hab hba => ?_) hmap hlist hperm
  exact absurd hba (Std.not_lt.mpr (Std.le_of_lt hab))

/-! ## The vocabulary -/

section

variable (config : Config.LexicalConfig) (docs : List String)

/-- The terms of a vocabulary with their numbers of documents. -/
def keptCounts : List (String × Nat) :=
  (documentCounts config.lowercase docs).filter fun entry =>
    decide (config.minimum ≤ entry.2) &&
      entry.2.toFloat ≤ config.maximum * docs.length.toFloat

theorem terms_fit : (fit config docs).terms = (keptCounts config docs).map (·.1) :=
  rfl

theorem increasing_fit : (fit config docs).Increasing := by
  refine List.Pairwise.imp Text.encode_lt_iff.mpr ?_
  exact (documentCounts_increasing config.lowercase docs).sublist (List.filter_sublist.map _)

theorem mem_keptCounts {entry : String × Nat} :
    entry ∈ keptCounts config docs ↔
      (1 ≤ documentFrequency config.lowercase docs entry.1 ∧
        entry.2 = documentFrequency config.lowercase docs entry.1) ∧
      config.minimum ≤ entry.2 ∧ entry.2.toFloat ≤ config.maximum * docs.length.toFloat := by
  rw [keptCounts, List.mem_filter, mem_documentCounts, Bool.and_eq_true, decide_eq_true_iff,
    decide_eq_true_iff]

theorem mem_terms_fit {term : String} :
    term ∈ (fit config docs).terms ↔
      1 ≤ documentFrequency config.lowercase docs term ∧
      config.minimum ≤ documentFrequency config.lowercase docs term ∧
      (documentFrequency config.lowercase docs term).toFloat ≤
        config.maximum * docs.length.toFloat := by
  rw [terms_fit, List.mem_map]
  constructor
  · rintro ⟨entry, hentry, rfl⟩
    obtain ⟨⟨hone, hcount⟩, hbounds⟩ := (mem_keptCounts config docs).mp hentry
    exact ⟨hone, hcount ▸ hbounds⟩
  · rintro ⟨hone, hbounds⟩
    exact ⟨(term, _), (mem_keptCounts config docs).mpr ⟨⟨hone, rfl⟩, hbounds⟩, rfl⟩

theorem idf_fit_eq_map :
    (fit config docs).idf = (fit config docs).terms.map fun term =>
      weight docs.length (documentFrequency config.lowercase docs term) := by
  rw [terms_fit, List.map_map]
  refine List.map_congr_left fun entry hentry => ?_
  rw [((mem_keptCounts config docs).mp hentry).1.2]
  rfl

/-- Fitting keeps exactly the terms whose number of documents is within the bounds, in the order of
their bytes, each with its smoothed inverse document frequency: one more than the logarithm of the
quotient of the number of all documents and that of its own, either raised by one. -/
theorem fit_vocabulary :
    (fit config docs).Increasing ∧
    (∀ term, term ∈ (fit config docs).terms ↔
      1 ≤ documentFrequency config.lowercase docs term ∧
      config.minimum ≤ documentFrequency config.lowercase docs term ∧
      (documentFrequency config.lowercase docs term).toFloat ≤
        config.maximum * docs.length.toFloat) ∧
    (fit config docs).idf.length = (fit config docs).terms.length ∧
    (∀ j : Nat, (fit config docs).idf[j]? = (fit config docs).terms[j]?.map fun term =>
      ((1.0 + docs.length.toFloat) /
        (1.0 + (documentFrequency config.lowercase docs term).toFloat)).log + 1.0) ∧
    (fit config docs).documents = docs.length := by
  refine ⟨increasing_fit config docs, fun term => mem_terms_fit config docs, ?_, fun j => ?_, rfl⟩
  · rw [idf_fit_eq_map, List.length_map]
  · rw [idf_fit_eq_map, List.getElem?_map]
    rfl

end

end Lexical.Vectorizer

end ScriptFeatures
