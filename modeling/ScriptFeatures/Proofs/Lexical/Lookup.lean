import ScriptFeatures.Proofs.Json.Keeps
import ScriptFeatures.Proofs.Lexical.Vocabulary
import ScriptFeatures.Proofs.Pipeline.SaveLoad

/-! Where a term stands in a vocabulary. A vocabulary that was fitted has a table of places, one
that was read from a text has none and halves its terms, which works since they increase. Either way
a term is found at a place exactly if it stands there (`Ordered.place?_iff`), so nothing that is
computed depends on the table (`places_agree`). -/

namespace ScriptFeatures.Lexical.Vectorizer

open Json (Reads Number)

/-! ## Halving -/

section

variable {terms : List String}

theorem getElem?_lt_iff (h : terms.Pairwise (· < ·)) {i j : Nat} {a b : String}
    (ha : terms[i]? = some a) (hb : terms[j]? = some b) : a < b ↔ i < j := by
  have hmono : ∀ {i j : Nat} {a b : String}, terms[i]? = some a → terms[j]? = some b → i < j →
      a < b := by
    intro i j a b ha hb hij
    obtain ⟨hi, rfl⟩ := List.getElem?_eq_some_iff.mp ha
    obtain ⟨hj, rfl⟩ := List.getElem?_eq_some_iff.mp hb
    exact List.pairwise_iff_getElem.mp h i j hi hj hij
  refine ⟨fun hab => ?_, hmono ha hb⟩
  obtain hij | rfl | hji := Nat.lt_trichotomy i j
  · exact hij
  · rw [Option.some.inj (ha.symm.trans hb)] at hab
    exact absurd hab Std.lt_irrefl
  · exact absurd (Std.lt_trans hab (hmono hb ha hji)) Std.lt_irrefl

/-- Halving ends at the place of a term, if it lies among those that are narrowed down: the term in
the middle is above it exactly if it stands behind it. -/
theorem bisect_eq (h : terms.Pairwise (· < ·)) {term : String} {j : Nat}
    (hj : terms[j]? = some term) {steps base size : Nat} (hsteps : size ≤ steps + 1)
    (hfits : base + size ≤ terms.length) (hlow : base ≤ j) (hhigh : j < base + size) :
    bisect terms.toArray term steps base size = j := by
  induction steps generalizing base size with
  | zero =>
    rw [bisect]
    omega
  | succ steps ih =>
    rw [bisect]
    split
    · omega
    · have hmiddle : base + size / 2 < terms.length := by omega
      have hget : terms[base + size / 2]? = some (terms.toArray.getD (base + size / 2) "") := by
        simp [hmiddle]
      dsimp only
      split
      · next hlt =>
        have hbehind := (getElem?_lt_iff h hj hget).mp hlt
        exact ih (by omega) (by omega) hlow (by omega)
      · next hnot =>
        have hbefore := Nat.not_lt.mp (mt (getElem?_lt_iff h hj hget).mpr hnot)
        exact ih (by omega) (by omega) hbefore (by omega)

theorem search?_iff (h : terms.Pairwise (· < ·)) {term : String} {j : Nat} :
    search? terms.toArray term = some j ↔ terms[j]? = some term := by
  rw [search?, List.getElem?_toArray, Option.ite_none_right_eq_some]
  constructor
  · rintro ⟨hfound, hplace⟩
    cases hplace
    exact hfound
  · intro hj
    obtain ⟨hlt, -⟩ := List.getElem?_eq_some_iff.mp hj
    have hbisect : bisect terms.toArray term terms.toArray.size 0 terms.toArray.size = j :=
      bisect_eq h hj (Nat.le_succ _) (by simp) (Nat.zero_le j) (by simpa using hlt)
    rw [hbisect]
    exact ⟨hj, rfl⟩

end

/-! ## The table of places -/

theorem foldl_insert_eq_insertMany (entries : List (String × Nat))
    (table : Std.HashMap String Nat) :
    entries.foldl (fun table entry => table.insert entry.1 entry.2) table =
      table.insertMany entries := by
  induction entries generalizing table with
  | nil => rw [List.foldl_nil, Std.HashMap.insertMany_nil]
  | cons entry entries ih => rw [List.foldl_cons, ih, Std.HashMap.insertMany_cons]

theorem lookup_index (v : Vectorizer) : v.index.lookup = Std.HashMap.ofList v.terms.zipIdx := by
  rw [Std.HashMap.ofList_eq_insertMany_empty]
  exact foldl_insert_eq_insertMany _ _

section

variable {terms : List String}

theorem zipIdx_distinct (h : terms.Nodup) :
    terms.zipIdx.Pairwise fun a b => (a.1 == b.1) = false := by
  rw [← List.zipIdx_map_fst 0 terms, List.nodup_iff_pairwise_ne, List.pairwise_map] at h
  exact h.imp beq_false_of_ne

theorem getElem?_ofList_zipIdx (h : terms.Nodup) {term : String} {j : Nat} :
    (Std.HashMap.ofList terms.zipIdx)[term]? = some j ↔ terms[j]? = some term := by
  constructor
  · intro hfound
    by_cases hmem : term ∈ terms
    · obtain ⟨i, hi⟩ := List.mem_iff_getElem?.mp hmem
      have hplace : (Std.HashMap.ofList terms.zipIdx)[term]? = some i :=
        Std.HashMap.getElem?_ofList_of_mem (beq_self_eq_true term) (zipIdx_distinct h)
          (List.mem_zipIdx_iff_getElem?.mpr hi)
      rw [hfound] at hplace
      cases hplace
      exact hi
    · have hnone : (Std.HashMap.ofList terms.zipIdx)[term]? = none := by
        apply Std.HashMap.getElem?_ofList_of_contains_eq_false
        rw [List.zipIdx_map_fst]
        simpa using hmem
      exact nomatch hfound.symm.trans hnone
  · intro hj
    exact Std.HashMap.getElem?_ofList_of_mem (beq_self_eq_true term) (zipIdx_distinct h)
      (List.mem_zipIdx_iff_getElem?.mpr hj)

end

/-! ## Places -/

/-- The vocabulary without its table of places. -/
def bare (v : Vectorizer) : Vectorizer :=
  { v with lookup := ∅ }

/-- A vocabulary whose terms increase. It has the table of places that belongs to its terms, or
none. -/
structure Ordered (v : Vectorizer) : Prop where
  increasing : v.Increasing
  lookup : v.bare = v ∨ v.index = v

section

variable {v : Vectorizer}

theorem Increasing.pairwise_lt (h : v.Increasing) : v.terms.Pairwise (· < ·) :=
  List.Pairwise.imp Text.encode_lt_iff.mp h

theorem Increasing.nodup (h : v.Increasing) : v.terms.Nodup :=
  h.pairwise_lt.imp Std.ne_of_lt

theorem Increasing.place?_index_iff (h : v.Increasing) {term : String} {j : Nat} :
    v.index.place? term = some j ↔ v.terms[j]? = some term := by
  have hsize : v.index.lookup.size = v.index.terms.toArray.size := by
    rw [lookup_index, Std.HashMap.size_ofList (zipIdx_distinct h.nodup), List.length_zipIdx]
    rfl
  rw [place?, placeIn?, if_pos hsize, lookup_index]
  exact getElem?_ofList_zipIdx h.nodup

theorem Increasing.place?_bare_iff (h : v.Increasing) {term : String} {j : Nat} :
    v.bare.place? term = some j ↔ v.terms[j]? = some term := by
  rw [place?, placeIn?]
  split
  · next hsize =>
    -- an empty table has as many entries as there are terms only if there is no term
    have hnil : v.terms = [] := by simpa [bare] using hsize.symm
    simp [bare, hnil]
  · exact search?_iff h.pairwise_lt

/-- With the table of places or without it, a term is found where it stands. -/
theorem Ordered.place?_iff (h : v.Ordered) {term : String} {j : Nat} :
    v.place? term = some j ↔ v.terms[j]? = some term := by
  obtain hv | hv := h.lookup
  · rw [← hv]
    exact h.increasing.place?_bare_iff
  · rw [← hv]
    exact h.increasing.place?_index_iff

theorem Increasing.ordered_bare (h : v.Increasing) : v.bare.Ordered :=
  ⟨h, .inl rfl⟩

theorem Increasing.ordered_index (h : v.Increasing) : v.index.Ordered :=
  ⟨h, .inr rfl⟩

theorem ordered_fit (config : Config.LexicalConfig) (docs : List String) :
    (fit config docs).Ordered :=
  ⟨increasing_fit config docs, .inr rfl⟩

/-- A vocabulary that is read from a text has no table of places. -/
theorem bare_of_read {cs rest : List Char} (h : Vectorizer.read cs = .ok (v, rest)) :
    v.bare = v := by
  have hempty : v.lookup = ∅ := by
    refine Json.record_keeps (P := fun w : Vectorizer => w.lookup = ∅) (fun field hfield => ?_)
      rfl h
    simp only [List.mem_cons, List.not_mem_nil, or_false] at hfield
    obtain rfl | rfl | rfl | rfl | rfl := hfield <;> exact Json.Field.keeps_needed fun _ _ hw => hw
  rw [bare, ← hempty]

/-- What is read from the text of a vocabulary is the vocabulary without its table of places, if the
weights are read back from their digits. -/
theorem reread_eq_bare (hweights : ∀ w ∈ v.idf, Number.ReadsBack w) : v.reread = v.bare := by
  have hidf : v.idf.map Number.reread = v.idf :=
    (List.map_congr_left fun w hw => (hweights w hw).reread_eq).trans (List.map_id' _)
  rw [reread, hidf, bare]

/-! ## Rows -/

theorem termCounts_congr {v w : Vectorizer} {terms : Array String}
    (hplace : ∀ token, placeIn? terms v.lookup token = placeIn? terms w.lookup token)
    (hlowercase : v.lowercase = w.lowercase) (doc : String) :
    v.termCounts terms doc = w.termCounts terms doc := by
  rw [termCounts, termCounts, hlowercase]
  simp only [hplace]

/-- Rows do not depend on the table of places. -/
theorem Ordered.transform_bare (h : v.Ordered) (docs : List String) :
    v.bare.transform docs = v.transform docs := by
  have hplace : ∀ token, v.bare.place? token = v.place? token := fun token =>
    Option.ext fun j => h.increasing.place?_bare_iff.trans h.place?_iff.symm
  have hcounts : ∀ doc, v.bare.termCounts v.terms.toArray doc =
      v.termCounts v.terms.toArray doc := termCounts_congr hplace rfl
  have hrow : v.bare.rowOfCounts = v.rowOfCounts := rfl
  calc v.bare.transform docs
    _ = docs.map fun doc => v.bare.rowOfCounts v.idf.toArray
          (v.bare.termCounts v.terms.toArray doc).toList := rfl
    _ = v.transform docs := by
      simp only [hcounts, hrow]
      rfl

/-- A term is found exactly where it stands, with the table of places and without it, so rows do not
depend on the table. What is read from a text has no table: reading the text of a vocabulary leaves
the terms where they were and gives the same rows, before and after the table is built again, as
the vocabulary itself if its weights are read back from their digits. -/
theorem places_agree :
    (∀ v : Vectorizer, v.Ordered → ∀ (term : String) (j : Nat),
      v.place? term = some j ↔ v.terms[j]? = some term) ∧
    (∀ v : Vectorizer, v.Increasing → v.bare.Ordered ∧ v.index.Ordered ∧
      ∀ docs, v.bare.transform docs = v.index.transform docs) ∧
    (∀ (cs rest : List Char) (v : Vectorizer), Vectorizer.read cs = .ok (v, rest) → v.bare = v) ∧
    (∀ v : Vectorizer, v.Increasing → v.Writable →
      Reads Vectorizer.read v.toJson v.reread ∧ v.reread.Ordered ∧
      (∀ docs, v.reread.transform docs = v.reread.index.transform docs) ∧
      ((∀ w ∈ v.idf, Number.ReadsBack w) → v.reread = v.bare)) ∧
    ∀ (config : Config.LexicalConfig) (docs : List String),
      let v := fit config docs
      v.Ordered ∧ v.bare.index = v ∧ ∀ queries, v.bare.transform queries = v.transform queries := by
  have hbare : ∀ v : Vectorizer, v.Increasing → ∀ docs,
      v.bare.transform docs = v.index.transform docs := fun v h => h.ordered_index.transform_bare
  refine ⟨fun v h _ _ => h.place?_iff, fun v h => ?_, fun _ _ _ h => bare_of_read h,
    fun v h hwritable => ?_, fun config docs => ?_⟩
  · exact ⟨h.ordered_bare, h.ordered_index, hbare v h⟩
  · have hreread : v.reread.Increasing := h
    exact ⟨hwritable.reads, hreread.ordered_bare, hbare v.reread hreread, reread_eq_bare⟩
  · have hfit := ordered_fit config docs
    exact ⟨hfit, rfl, hfit.transform_bare⟩

/-- Two terms of a script, the second of which takes more bytes than characters. -/
theorem places_agree_two :
    let v := index ⟨["\"\n", "größe"], [1.0, 1.2876820724517808], true, false, 3, ∅⟩
    v.Increasing ∧ v.Writable ∧ (∀ w ∈ v.idf, Number.ReadsBack w) ∧
    v.place? "größe" = some 1 ∧ v.bare.place? "größe" = some 1 ∧ v.reread.place? "größe" = some 1 ∧
    Reads Vectorizer.read v.toJson v.bare ∧
    (∃ rest, Vectorizer.read (v.toJson.write .line []) = .ok (v.reread, rest) ∧
      v.reread.bare = v.reread) ∧
    ∀ docs, v.bare.transform docs = v.transform docs := by
  intro v
  have hincreasing : v.Increasing := by
    refine List.pairwise_pair.mpr (Text.encode_lt_iff.mpr ?_)
    decide
  have hback : ∀ w ∈ v.idf, Number.ReadsBack w := Pipeline.fullBundle_readsBack v rfl
  have hwritable : v.Writable :=
    (Pipeline.fullBundle_storable.loadable Pipeline.fullBundle_readsBack).vectorizer v rfl
  obtain ⟨hplace, hrows, hread, htext, -⟩ := places_agree
  obtain ⟨hbare, hindex, hequal⟩ := hrows v hincreasing
  obtain ⟨hreads, hreread, -, hsame⟩ := htext v hincreasing hwritable
  have hline := hreads.reads_write .line .nil
  refine ⟨hincreasing, hwritable, hback, (hplace v hindex _ _).mpr rfl,
    (hplace _ hbare _ _).mpr rfl, (hplace _ hreread _ _).mpr rfl, ?_,
    ⟨_, hline, hread _ _ _ hline⟩, hequal⟩
  exact hsame hback ▸ hreads

end

end ScriptFeatures.Lexical.Vectorizer
