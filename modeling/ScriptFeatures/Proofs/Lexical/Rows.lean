import ScriptFeatures.Proofs.Lexical.Lookup
import ScriptFeatures.Proofs.Table.Index

/-! The rows of documents. What is counted for a vocabulary are the occurrences of its terms among
the tokens of a document (`Ordered.termCounts_eq`), and a row is made of these counts
(`Ordered.transform_eq_map`).

A row can also be written in place: the places that a document meets are counted in a hash map, the
number for each entry goes to its cell in a matrix that is shared by all documents, and the row is
scaled where it stands. `Enumeration` leaves the order of the entries open. One document changes
its own row only, each cell at most once (`Ordered.fillRow_eq_modify`), and all of them together
leave the same rows (`Ordered.transformInPlace_eq`). -/

namespace ScriptFeatures.Lexical.Vectorizer

/-! ## Counting terms -/

/-- How often a term stands among the tokens of a document. -/
def occurrences (v : Vectorizer) (doc term : String) : Nat :=
  (Text.tokenize v.lowercase doc).count term

def countToken (v : Vectorizer) (counts : Array Nat) (token : String) : Array Nat :=
  match v.place? token with
  | some j => counts.modify j (· + 1)
  | none => counts

theorem termCounts_eq_foldl (v : Vectorizer) (doc : String) :
    v.termCounts v.terms.toArray doc =
      (Text.tokenize v.lowercase doc).foldl v.countToken (Array.replicate v.terms.length 0) :=
  rfl

section

variable {v : Vectorizer}

theorem Ordered.place?_eq_none_iff (h : v.Ordered) {term : String} :
    v.place? term = none ↔ term ∉ v.terms := by
  rw [Option.eq_none_iff_forall_ne_some, List.mem_iff_getElem?, not_exists]
  exact forall_congr' fun j => not_congr h.place?_iff

theorem Ordered.countToken_map (h : v.Ordered) (count : String → Nat) (token : String) :
    v.countToken (v.terms.map count).toArray token =
      (v.terms.map fun t => count t + if token = t then 1 else 0).toArray := by
  rw [countToken]
  cases hplace : v.place? token with
  | some j =>
    dsimp only
    rw [List.modify_toArray, Table.modify_map h.increasing.nodup (h.place?_iff.mp hplace)]
    congr 1
    refine List.map_congr_left fun t _ => ?_
    by_cases ht : t = token
    · simp [ht]
    · have hne : token ≠ t := fun heq => ht heq.symm
      simp [ht, hne]
  | none =>
    have hnot := h.place?_eq_none_iff.mp hplace
    refine congrArg List.toArray ?_
    refine List.map_congr_left fun t ht => ?_
    have hne : token ≠ t := by
      rintro rfl
      exact hnot ht
    simp [hne]

theorem Ordered.foldl_countToken (h : v.Ordered) (count : String → Nat) (tokens : List String) :
    tokens.foldl v.countToken (v.terms.map count).toArray =
      (v.terms.map fun t => count t + tokens.count t).toArray := by
  induction tokens generalizing count with
  | nil => rfl
  | cons token tokens ih =>
    rw [List.foldl_cons, h.countToken_map, ih]
    congr 1
    refine List.map_congr_left fun t _ => ?_
    rw [List.count_cons, Nat.add_assoc, Nat.add_comm (List.count t tokens)]
    simp only [beq_iff_eq]

theorem Ordered.termCounts_eq (h : v.Ordered) (doc : String) :
    v.termCounts v.terms.toArray doc = (v.terms.map (v.occurrences doc)).toArray := by
  have hzero : Array.replicate v.terms.length 0 = (v.terms.map fun _ => 0).toArray := by
    rw [List.map_const', List.toArray_replicate]
  rw [termCounts_eq_foldl, hzero, h.foldl_countToken]
  simp only [Nat.zero_add]
  rfl

end

/-! ## Rows of cells -/

/-- The number of a document for a term of some weight, before the row is scaled: how often the term
occurs, or one more than the logarithm of that, times the weight. -/
def cell (v : Vectorizer) (doc term : String) (weight : Float) : Float :=
  let count := v.occurrences doc term
  if count = 0 then 0
  else (if v.sublinear then 1.0 + count.toFloat.log else count.toFloat) * weight

theorem cell_eq (v : Vectorizer) (doc term : String) (weight : Float) :
    v.cell doc term weight = if v.occurrences doc term = 0 then 0
      else measure v.sublinear (v.occurrences doc term) * weight :=
  rfl

/-- The numbers of a document before they are scaled. -/
def cells (v : Vectorizer) (doc : String) : List Float :=
  v.terms.zipWith (v.cell doc) v.idf

section

variable {v : Vectorizer}

theorem Ordered.transform_eq_map (h : v.Ordered) (hidf : v.idf.length = v.terms.length)
    (docs : List String) : v.transform docs = docs.map fun doc => normalize (v.cells doc) := by
  refine List.map_congr_left fun doc _ => ?_
  rw [rowOfCounts, h.termCounts_eq, List.toList_toArray]
  refine congrArg normalize (List.ext_getElem? fun j => ?_)
  rw [cells, List.getElem?_map, List.getElem?_zipIdx, List.getElem?_map, List.getElem?_zipWith]
  cases hj : v.terms[j]? with
  | none => rfl
  | some term =>
    have hlt : j < v.idf.length := by
      rw [hidf]
      exact (List.getElem?_eq_some_iff.mp hj).1
    have hweight : v.idf[j]? = some v.idf[j] := List.getElem?_eq_getElem hlt
    simp [cell_eq, hweight]

theorem cells_congr {doc doc' : String}
    (h : ∀ term ∈ v.terms, v.occurrences doc term = v.occurrences doc' term) :
    v.cells doc = v.cells doc' := by
  refine List.ext_getElem? fun j => ?_
  rw [cells, cells, List.getElem?_zipWith, List.getElem?_zipWith]
  cases hj : v.terms[j]? with
  | none => rfl
  | some term =>
    have hcount := h term (List.mem_of_getElem? hj)
    cases v.idf[j]? with
    | none => rfl
    | some weight =>
      dsimp only
      rw [cell, cell, hcount]

end

/-! ## Rows in place -/

def countPlace (v : Vectorizer) (counts : Std.HashMap Nat Nat) (token : String) :
    Std.HashMap Nat Nat :=
  match v.place? token with
  | some j => counts.insert j (counts.getD j 0 + 1)
  | none => counts

/-- How often each place is met by a document. -/
def placeCounts (v : Vectorizer) (doc : String) : Std.HashMap Nat Nat :=
  (Text.tokenize v.lowercase doc).foldl v.countPlace ∅

/-- The order in which the entries of the hash map of each row are met. It may be any. -/
structure Enumeration where
  arrange : Nat → List (Nat × Nat) → List (Nat × Nat)
  perm : ∀ i entries, (arrange i entries).Perm entries

def writeCell (v : Vectorizer) (row : List Float) (entry : Nat × Nat) : List Float :=
  row.set entry.1 (measure v.sublinear entry.2 * v.idf.getD entry.1 0)

/-- Writes the numbers for counts into row `i` of a matrix. -/
def writeRow (v : Vectorizer) (i : Nat) (matrix : List (List Float)) (entries : List (Nat × Nat)) :
    List (List Float) :=
  entries.foldl (fun matrix entry => matrix.modify i (v.writeCell · entry)) matrix

/-- Writes the row of a document and scales it. -/
def fillRow (e : Enumeration) (v : Vectorizer) (matrix : List (List Float))
    (entry : String × Nat) : List (List Float) :=
  (v.writeRow entry.2 matrix (e.arrange entry.2 (v.placeCounts entry.1).toList)).modify entry.2
    normalize

/-- The numbers of documents, written row by row into one matrix that starts with zeros. -/
def transformInPlace (e : Enumeration) (v : Vectorizer) (docs : List String) : List (List Float) :=
  let zeros := List.replicate docs.length (List.replicate v.terms.length 0)
  if v.terms.isEmpty then zeros else docs.zipIdx.foldl (v.fillRow e) zeros

/-- What a document leaves in a cell: the number for its count of the term at that place, or what
was there before, if it does not have the term. -/
def written (v : Vectorizer) (doc : String) (j : Nat) (old : Float) : Float :=
  match v.terms[j]? with
  | some term =>
    if v.occurrences doc term = 0 then old else v.cell doc term (v.idf.getD j 0)
  | none => old

section

variable {v : Vectorizer}

theorem counts_foldl_countPlace (v : Vectorizer) {counts : Std.HashMap Nat Nat}
    {count : Nat → Nat} (h : Counts (counts[·]?) count) (tokens : List String) :
    Counts ((tokens.foldl v.countPlace counts)[·]?) fun j =>
      count j + tokens.countP (v.place? · = some j) := by
  induction tokens generalizing counts count with
  | nil => exact h
  | cons token tokens ih =>
    have hstep : Counts ((v.countPlace counts token)[·]?) fun j =>
        count j + if v.place? token = some j then 1 else 0 := by
      rw [countPlace]
      cases hplace : v.place? token with
      | none => exact h.congr fun j => by simp
      | some k =>
        refine (h.raise k fun j => ?_).congr fun j => by simp
        rw [Std.HashMap.getElem?_insert, Std.HashMap.getD_eq_getD_getElem?]
        simp only [beq_iff_eq]
    refine (ih hstep).congr fun j => ?_
    rw [List.countP_cons, Nat.add_assoc, Nat.add_comm (List.countP _ tokens)]
    simp only [decide_eq_true_eq]

theorem Ordered.counts_placeCounts (h : v.Ordered) (doc : String) :
    Counts ((v.placeCounts doc)[·]?) fun j : Nat =>
      v.terms[j]?.elim 0 (v.occurrences doc) := by
  have hempty : Counts ((∅ : Std.HashMap Nat Nat)[·]?) fun _ => 0 := fun _ =>
    Std.HashMap.getElem?_empty
  refine (counts_foldl_countPlace v hempty (Text.tokenize v.lowercase doc)).congr fun j => ?_
  simp only [Nat.zero_add, h.place?_iff]
  cases hj : v.terms[j]? with
  | none =>
    refine List.countP_eq_zero.mpr fun token _ => ?_
    simp
  | some term =>
    refine List.countP_congr fun token _ => ?_
    rw [decide_eq_true_eq, Option.some.injEq, beq_iff_eq]
    exact eq_comm

theorem getElem?_writeCell (v : Vectorizer) (row : List Float) (entry : Nat × Nat) (j : Nat) :
    (v.writeCell row entry)[j]? = row[j]?.map fun old =>
      if entry.1 = j then measure v.sublinear entry.2 * v.idf.getD j 0 else old := by
  rw [writeCell, List.getElem?_set']
  split
  · next hj =>
    subst hj
    rfl
  · exact Option.map_id'.symm

theorem getElem?_foldl_writeCell_of_notMem (v : Vectorizer) {entries : List (Nat × Nat)} {j : Nat}
    (h : ∀ n, (j, n) ∉ entries) (row : List Float) :
    (entries.foldl v.writeCell row)[j]? = row[j]? := by
  induction entries generalizing row with
  | nil => rfl
  | cons entry entries ih =>
    have hne : entry.1 ≠ j := by
      rintro rfl
      exact h entry.2 List.mem_cons_self
    rw [List.foldl_cons, ih (fun n hn => h n (List.mem_cons_of_mem _ hn)), getElem?_writeCell]
    simp [hne]

/-- Where a place has one entry only, its cell gets the number for that entry, in whatever order the
entries are written. -/
theorem getElem?_foldl_writeCell_of_mem (v : Vectorizer) {entries : List (Nat × Nat)} {j n : Nat}
    (hmem : (j, n) ∈ entries) (hone : ∀ m, (j, m) ∈ entries → m = n) (row : List Float) :
    (entries.foldl v.writeCell row)[j]? =
      row[j]?.map fun _ => measure v.sublinear n * v.idf.getD j 0 := by
  induction entries generalizing row with
  | nil => exact nomatch hmem
  | cons entry entries ih =>
    rw [List.foldl_cons]
    -- if the entry comes again, what is written here is written over by the same number
    by_cases hrest : (j, n) ∈ entries
    · rw [ih hrest fun m hm => hone m (List.mem_cons_of_mem _ hm), getElem?_writeCell,
        Option.map_map]
      rfl
    · obtain rfl | hmem := List.mem_cons.mp hmem
      · have hnot : ∀ m, (j, m) ∉ entries := fun m hm =>
          hrest (hone m (List.mem_cons_of_mem _ hm) ▸ hm)
        rw [getElem?_foldl_writeCell_of_notMem v hnot, getElem?_writeCell]
        simp
      · exact absurd hmem hrest

/-- The counts of a document are written the same in any order: each cell gets the number for the
count of its term and stays as it was if the term does not occur. -/
theorem Ordered.foldl_writeCell (h : v.Ordered) (doc : String) {entries : List (Nat × Nat)}
    (hperm : entries.Perm (v.placeCounts doc).toList) (row : List Float) :
    entries.foldl v.writeCell row = row.mapIdx (v.written doc) := by
  have hentries : ∀ j n, (j, n) ∈ entries ↔
      1 ≤ v.terms[j]?.elim 0 (v.occurrences doc) ∧ n = v.terms[j]?.elim 0 (v.occurrences doc) := by
    intro j n
    rw [hperm.mem_iff, Std.HashMap.mem_toList_iff_getElem?_eq_some]
    exact (h.counts_placeCounts doc).eq_some_iff
  refine List.ext_getElem? fun j => ?_
  rw [List.getElem?_mapIdx]
  by_cases hzero : v.terms[j]?.elim 0 (v.occurrences doc) = 0
  · have hnot : ∀ n, (j, n) ∉ entries := fun n hn => by
      have hpos := ((hentries j n).mp hn).1
      omega
    rw [getElem?_foldl_writeCell_of_notMem v hnot]
    have hold : v.written doc j = id := by
      funext old
      rw [written]
      cases hj : v.terms[j]? with
      | none => rfl
      | some term =>
        rw [hj] at hzero
        exact if_pos hzero
    rw [hold, Option.map_id, id]
  · have hmem := (hentries j _).mpr ⟨Nat.one_le_iff_ne_zero.mpr hzero, rfl⟩
    have hone : ∀ m, (j, m) ∈ entries → m = v.terms[j]?.elim 0 (v.occurrences doc) := fun m hm =>
      ((hentries j m).mp hm).2
    rw [getElem?_foldl_writeCell_of_mem v hmem hone]
    refine congrArg (row[j]?.map ·) (funext fun old => ?_)
    rw [written]
    cases hj : v.terms[j]? with
    | none => exact absurd (by rw [hj]; rfl) hzero
    | some term =>
      have hzero : v.occurrences doc term ≠ 0 := by
        rw [hj] at hzero
        exact hzero
      dsimp only [Option.elim]
      rw [if_neg hzero, cell_eq, if_neg hzero]

theorem writeRow_eq_modify (v : Vectorizer) (i : Nat) (matrix : List (List Float))
    (entries : List (Nat × Nat)) :
    v.writeRow i matrix entries = matrix.modify i (entries.foldl v.writeCell ·) := by
  induction entries generalizing matrix with
  | nil => exact (List.modify_id i matrix).symm
  | cons entry entries ih =>
    rw [writeRow, List.foldl_cons, ← writeRow, ih, List.modify_modify_eq]
    rfl

/-- Filling a row goes over its cells once and scales it. The other rows stay as they were. -/
theorem Ordered.fillRow_eq_modify (h : v.Ordered) (e : Enumeration) (matrix : List (List Float))
    (entry : String × Nat) :
    v.fillRow e matrix entry =
      matrix.modify entry.2 fun row => normalize (row.mapIdx (v.written entry.1)) := by
  rw [fillRow, writeRow_eq_modify, List.modify_modify_eq]
  refine congrArg (matrix.modify entry.2) (funext fun row => ?_)
  exact congrArg normalize (h.foldl_writeCell entry.1 (e.perm _ _) row)

theorem modify_length_append {α : Type} (front : List α) (a : α) (rest : List α) (f : α → α) :
    (front ++ a :: rest).modify front.length f = front ++ f a :: rest := by
  induction front with
  | nil => rfl
  | cons b front ih =>
    rw [List.cons_append, List.length_cons, List.modify_succ_cons, ih]
    rfl

theorem Ordered.foldl_fillRow (h : v.Ordered) (e : Enumeration) (blank : List Float)
    (docs : List String) (rows : List (List Float)) :
    (docs.zipIdx rows.length).foldl (v.fillRow e) (rows ++ List.replicate docs.length blank) =
      rows ++ docs.map fun doc => normalize (blank.mapIdx (v.written doc)) := by
  -- the documents so far have filled `rows`, and every row behind them is still blank
  induction docs generalizing rows with
  | nil => rfl
  | cons doc docs ih =>
    have hnext := ih (rows ++ [normalize (blank.mapIdx (v.written doc))])
    rw [List.length_append, List.length_singleton, List.append_assoc, List.append_assoc] at hnext
    rw [List.zipIdx_cons, List.foldl_cons, h.fillRow_eq_modify, List.length_cons,
      List.replicate_succ, modify_length_append]
    exact hnext

theorem mapIdx_written_zeros (hidf : v.idf.length = v.terms.length) (doc : String) :
    (List.replicate v.terms.length 0).mapIdx (v.written doc) = v.cells doc := by
  refine List.ext_getElem? fun j => ?_
  rw [cells, List.getElem?_mapIdx, List.getElem?_replicate, List.getElem?_zipWith]
  cases hj : v.terms[j]? with
  | none =>
    have hge := List.getElem?_eq_none_iff.mp hj
    rw [if_neg (Nat.not_lt.mpr hge)]
    rfl
  | some term =>
    have hlt := (List.getElem?_eq_some_iff.mp hj).1
    have hweight : v.idf[j]? = some (v.idf.getD j 0) := by
      simp [hidf, hlt]
    rw [if_pos hlt, hweight]
    by_cases hzero : v.occurrences doc term = 0
    · simp only [Option.map_some, written, hj, cell_eq, if_pos hzero]
    · simp only [Option.map_some, written, hj, if_neg hzero]

/-- Writing the rows into one matrix of zeros, the entries of each in any order, gives the rows of
the documents. -/
theorem Ordered.transformInPlace_eq (h : v.Ordered) (hidf : v.idf.length = v.terms.length)
    (e : Enumeration) (docs : List String) : v.transformInPlace e docs = v.transform docs := by
  rw [h.transform_eq_map hidf, transformInPlace]
  have hrun := h.foldl_fillRow e (List.replicate v.terms.length 0) docs []
  simp only [mapIdx_written_zeros hidf] at hrun
  split
  · next hempty =>
    -- without terms every row is empty, and there is nothing to scale
    have hterms : v.terms = [] := List.isEmpty_iff.mp hempty
    have hcells : ∀ doc, normalize (v.cells doc) = [] := fun doc => by
      simp [cells, hterms, normalize]
    simp only [hcells, hterms, List.map_const', List.length_nil, List.replicate_zero]
  · exact hrun

end

/-! ## The main result -/

section

variable {v : Vectorizer}

/-- Rows are made of the counts of the terms and of nothing else: documents that have every term
equally often get the same row, wherever they stand in whatever batch. Written into a shared
matrix, in any order of the counts, a document changes the cells of its row only: a cell gets the
number for the count of its term and is not touched if the term does not occur. -/
theorem rows_by_counts (h : v.Ordered) (hidf : v.idf.length = v.terms.length) :
    (∀ (docs docs' : List String) (i i' : Nat) (doc doc' : String), docs[i]? = some doc →
      docs'[i']? = some doc' →
      (∀ term ∈ v.terms, v.occurrences doc term = v.occurrences doc' term) →
      ∃ row, (v.transform docs)[i]? = some row ∧ (v.transform docs')[i']? = some row) ∧
    (∀ docs, v.transform docs = docs.map fun doc => normalize (v.cells doc)) ∧
    ∀ e : Enumeration,
      (∀ docs, v.transformInPlace e docs = v.transform docs) ∧
      ∀ (i : Nat) (doc : String) (matrix : List (List Float)),
        v.writeRow i matrix (e.arrange i (v.placeCounts doc).toList) =
          matrix.modify i (·.mapIdx (v.written doc)) := by
  have hrows := h.transform_eq_map hidf
  refine ⟨?_, hrows, fun e => ⟨h.transformInPlace_eq hidf e, fun i doc matrix => ?_⟩⟩
  · intro docs docs' i i' doc doc' hdoc hdoc' hcounts
    refine ⟨normalize (v.cells doc), ?_, ?_⟩
    · rw [hrows, List.getElem?_map, hdoc]
      rfl
    · rw [hrows, List.getElem?_map, hdoc', cells_congr hcounts]
      rfl
  · rw [writeRow_eq_modify]
    exact congrArg (matrix.modify i) (funext (h.foldl_writeCell doc (e.perm _ _)))

end

/-- Two documents with the same terms in another order, among other words and marks. -/
theorem rows_by_counts_pair :
    let v : Vectorizer := ⟨["ab", "cd"], [1.5, 1.0], true, false, 2, ∅⟩
    let e : Enumeration := ⟨fun _ entries => entries.reverse, fun _ => List.reverse_perm⟩
    let doc := "ab cd ab; x"
    let doc' := "(cd) zz, ab\nab"
    v.Ordered ∧ v.idf.length = v.terms.length ∧
    (∀ term ∈ v.terms, v.occurrences doc term = v.occurrences doc' term) ∧
    (∃ row, (v.transform ["", doc])[1]? = some row ∧ (v.transform [doc'])[0]? = some row) ∧
    v.transformInPlace e [doc, doc'] = v.transform [doc, doc'] := by
  intro v e doc doc'
  have hordered : v.Ordered := by
    refine ⟨List.pairwise_pair.mpr (Text.encode_lt_iff.mpr ?_), .inl rfl⟩
    decide
  have hcounts : ∀ term ∈ v.terms, v.occurrences doc term = v.occurrences doc' term := by
    decide
  obtain ⟨hrow, -, hinPlace⟩ := rows_by_counts hordered rfl
  exact ⟨hordered, rfl, hcounts, hrow _ _ 1 0 doc doc' rfl rfl hcounts, (hinPlace e).1 _⟩

end ScriptFeatures.Lexical.Vectorizer
