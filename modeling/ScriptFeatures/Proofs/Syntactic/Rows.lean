import Mathlib.Data.Finset.Insert
import ScriptFeatures.Proofs.Outcome
import ScriptFeatures.Proofs.Table.Index
import ScriptFeatures.Proofs.Tree.Walk
import ScriptFeatures.Syntactic.Columns

/-! Syntactic columns row by row. `gather` goes through the rows once: it puts each count where the
column of its kind and its row meet, and keeps the failures, the number of rows with a tree and the
kinds without a column. `Gathered.After` is what holds behind some rows: it is kept by every row
(`After.row`), and behind all of them the columns and the report are those that are computed kind by
kind (`materialize_eq`). -/

namespace ScriptFeatures.Syntactic

open Table (Column FeatureTable TableError)
open ScriptFeatures.Tree (NodeKind)

/-- What some rows have come to; `columns` has a list for each kind of the taxonomy. -/
structure Gathered where
  columns : List (List Float)
  parsed : Nat
  failures : List (Nat × ParseError)
  unseen : Finset NodeKind

/-- The last place of a kind in a taxonomy. -/
def position? (taxonomy : List NodeKind) (kind : NodeKind) : Option Nat :=
  (taxonomy.zipIdx.reverse.find? (·.1 == kind)).map Prod.snd

namespace Gathered

/-- Zeros only, before the first row. -/
def start (kinds rows : Nat) : Gathered :=
  ⟨List.replicate kinds (List.replicate rows 0), 0, [], ∅⟩

/-- Puts the count of a kind into the column of the kind, if there is one. -/
def place (taxonomy : List NodeKind) (row : Nat) (g : Gathered) : NodeKind × Nat → Gathered
  | (kind, n) =>
    match position? taxonomy kind with
    | some j => { g with columns := g.columns.modify j (·.set row n.toFloat) }
    | none => { g with unseen := insert kind g.unseen }

/-- Takes in a row. -/
def addRow (taxonomy : List NodeKind) (g : Gathered) :
    Except ParseError NodeCounts × Nat → Gathered
  | (.ok counts, row) => counts.foldl (place taxonomy row) { g with parsed := g.parsed + 1 }
  | (.error e, row) => { g with failures := g.failures ++ [(row, e)] }

end Gathered

/-- Takes in all rows. -/
def gather (results : List (Except ParseError NodeCounts)) (taxonomy : List NodeKind) : Gathered :=
  results.zipIdx.foldl (Gathered.addRow taxonomy) (.start taxonomy.length results.length)

/-- Adds the columns that the rows were gathered into. -/
def materialize (t : FeatureTable) (results : List (Except ParseError NodeCounts))
    (taxonomy : List NodeKind) : Except TableError (FeatureTable × Report) := do
  let g := gather results taxonomy
  let columns := taxonomy.zipWith (fun kind values => ⟨⟨.syntactic, kind.label⟩, values⟩) g.columns
  return (← t.pushAll columns,
    { rows := results.length
      parsed := g.parsed
      failures := g.failures
      taxonomy := taxonomy
      unseen := NodeKind.all.filter (· ∈ g.unseen) })

/-- A kind occurs in a row with a tree. -/
def Occurs (results : List (Except ParseError NodeCounts)) (kind : NodeKind) : Prop :=
  ∃ counts, .ok counts ∈ results ∧ kind ∈ counts.map Prod.fst

theorem mem_kindsOf {results : List (Except ParseError NodeCounts)} {kind : NodeKind} :
    kind ∈ kindsOf results ↔ Occurs results kind := by
  rw [kindsOf, List.mem_filter, and_iff_right kind.mem_all, List.any_eq_true, Occurs]
  constructor
  · rintro ⟨result, hmem, hany⟩
    cases result with
    | error e => exact nomatch hany
    | ok counts => exact ⟨counts, hmem, by simpa using hany⟩
  · rintro ⟨counts, hmem, hkind⟩
    exact ⟨.ok counts, hmem, by simpa using hkind⟩

/-! ## Columns by kind -/

section Position

variable {taxonomy : List NodeKind} {kind : NodeKind}

theorem position?_eq_some_iff (h : taxonomy.Nodup) {j : Nat} :
    position? taxonomy kind = some j ↔ taxonomy[j]? = some kind := by
  have hkeys : (taxonomy.zipIdx.map Prod.fst).Nodup := by rwa [List.zipIdx_map_fst]
  have hfind := Table.find?_reverse_key_iff Prod.fst hkeys kind
  rw [position?, Option.map_eq_some_iff]
  constructor
  · rintro ⟨⟨k, i⟩, hk, rfl⟩
    obtain ⟨hmem, rfl⟩ := (hfind _).mp hk
    exact List.mem_zipIdx_iff_getElem?.mp hmem
  · intro hj
    exact ⟨(kind, j), (hfind _).mpr ⟨List.mem_zipIdx_iff_getElem?.mpr hj, rfl⟩, rfl⟩

theorem position?_eq_none_iff (h : taxonomy.Nodup) :
    position? taxonomy kind = none ↔ kind ∉ taxonomy := by
  rw [Option.eq_none_iff_forall_ne_some, List.mem_iff_getElem?, not_exists]
  exact forall_congr' fun j => not_congr (position?_eq_some_iff h)

end Position

/-! ## Rows -/

namespace Gathered

variable {taxonomy : List NodeKind} {g : Gathered}

/-- What one count does: to the column of its kind, or to the kinds without a column. -/
theorem place_spec (h : taxonomy.Nodup) {f : NodeKind → List Float}
    (hg : g.columns = taxonomy.map f) (row : Nat) (kind : NodeKind) (n : Nat) :
    (g.place taxonomy row (kind, n)).columns =
        taxonomy.map (fun k => if k = kind then (f k).set row n.toFloat else f k) ∧
      (g.place taxonomy row (kind, n)).parsed = g.parsed ∧
      (g.place taxonomy row (kind, n)).failures = g.failures ∧
      ∀ k, k ∈ (g.place taxonomy row (kind, n)).unseen ↔
        k ∈ g.unseen ∨ k ∉ taxonomy ∧ k = kind := by
  rw [place]
  cases hj : position? taxonomy kind with
  | some j =>
    have hj' := (position?_eq_some_iff h).mp hj
    have hmem := List.mem_of_getElem? hj'
    refine ⟨?_, rfl, rfl, fun k => ?_⟩
    · rw [hg]
      exact Table.modify_map h hj' f _
    · refine (or_iff_left ?_).symm
      rintro ⟨hnot, rfl⟩
      exact hnot hmem
  | none =>
    have hnot := (position?_eq_none_iff h).mp hj
    refine ⟨?_, rfl, rfl, fun k => ?_⟩
    · rw [hg]
      refine List.map_congr_left fun k hk => (if_neg ?_).symm
      rintro rfl
      exact hnot hk
    · rw [Finset.mem_insert]
      constructor
      · rintro (rfl | hk)
        · exact .inr ⟨hnot, rfl⟩
        · exact .inl hk
      · rintro (hk | ⟨-, rfl⟩)
        · exact .inr hk
        · exact .inl rfl

/-- What all the counts of a row do, if no kind is counted twice. -/
theorem foldl_place_spec (h : taxonomy.Nodup) {f : NodeKind → List Float}
    (hg : g.columns = taxonomy.map f) (row : Nat) {counts : NodeCounts}
    (hcounts : (counts.map Prod.fst).Nodup) :
    (counts.foldl (place taxonomy row) g).columns = taxonomy.map (fun k =>
        (counts.lookup k).elim (f k) fun n => (f k).set row n.toFloat) ∧
      (counts.foldl (place taxonomy row) g).parsed = g.parsed ∧
      (counts.foldl (place taxonomy row) g).failures = g.failures ∧
      ∀ k, k ∈ (counts.foldl (place taxonomy row) g).unseen ↔
        k ∈ g.unseen ∨ k ∉ taxonomy ∧ k ∈ counts.map Prod.fst := by
  induction counts generalizing g f with
  | nil => exact ⟨hg, rfl, rfl, fun k => by simp⟩
  | cons entry rest ih =>
    obtain ⟨kind, n⟩ := entry
    obtain ⟨hnew, hrest⟩ := List.nodup_cons.mp hcounts
    obtain ⟨hcolumns, hparsed, hfailures, hunseen⟩ := place_spec h hg row kind n
    obtain ⟨hcolumns', hparsed', hfailures', hunseen'⟩ := ih hcolumns hrest
    rw [List.foldl_cons]
    refine ⟨?_, hparsed'.trans hparsed, hfailures'.trans hfailures, fun k => ?_⟩
    · rw [hcolumns']
      refine List.map_congr_left fun k _ => ?_
      by_cases hk : k = kind
      · subst hk
        have hnone : rest.lookup k = none := by
          refine List.lookup_eq_none_iff.mpr fun entry hentry => bne_iff_ne.mpr ?_
          rintro rfl
          exact hnew (List.mem_map.mpr ⟨entry, hentry, rfl⟩)
        simp [hnone]
      · simp [hk, List.lookup_cons, beq_eq_false_iff_ne.mpr hk]
    · rw [hunseen', hunseen, List.map_cons, List.mem_cons]
      tauto

/-- What holds behind the rows `done`, with `rest` rows to come. -/
structure After (taxonomy : List NodeKind) (done : List (Except ParseError NodeCounts))
    (rest : Nat) (g : Gathered) : Prop where
  columns : g.columns =
    taxonomy.map fun kind => done.map (valueOf kind) ++ List.replicate rest 0
  parsed : g.parsed = done.countP hasTree
  failures : g.failures = done.zipIdx.filterMap failureOf
  unseen : ∀ kind, kind ∈ g.unseen ↔ kind ∉ taxonomy ∧ Occurs done kind

namespace After

variable {done results : List (Except ParseError NodeCounts)} {rest : Nat}

theorem start (taxonomy : List NodeKind) (rows : Nat) :
    After taxonomy [] rows (start taxonomy.length rows) where
  columns := List.map_const'.symm
  parsed := rfl
  failures := rfl
  unseen := by
    intro kind
    refine iff_of_false (Finset.notMem_empty kind) ?_
    rintro ⟨-, _, hmem, -⟩
    exact List.not_mem_nil hmem

/-- The value of a row takes the place of the first zero behind the rows before it. -/
theorem set_replicate (values : List Float) (rest : Nat) (kind : NodeKind) (counts : NodeCounts) :
    ((counts.lookup kind).elim (values ++ List.replicate (rest + 1) 0) fun n =>
        (values ++ List.replicate (rest + 1) 0).set values.length n.toFloat) =
      values ++ valueOf kind (.ok counts) :: List.replicate rest 0 := by
  rw [List.replicate_succ, valueOf, countIn]
  cases counts.lookup kind with
  | none => rfl
  | some n => simp

theorem row (h : taxonomy.Nodup) (hg : After taxonomy done (rest + 1) g)
    {result : Except ParseError NodeCounts}
    (hresult : ∀ counts, result = .ok counts → (counts.map Prod.fst).Nodup) :
    After taxonomy (done ++ [result]) rest (g.addRow taxonomy (result, done.length)) := by
  have hoccurs (kind : NodeKind) : Occurs (done ++ [result]) kind ↔
      Occurs done kind ∨ ∃ counts, result = .ok counts ∧ kind ∈ counts.map Prod.fst := by
    simp only [Occurs, List.mem_append, List.mem_singleton, or_and_right, exists_or, eq_comm]
  cases result with
  | error e =>
    refine ⟨?_, ?_, ?_, fun kind => ?_⟩
    · rw [addRow, hg.columns]
      refine List.map_congr_left fun kind _ => ?_
      rw [List.map_append, List.append_assoc, List.replicate_succ]
      rfl
    · rw [addRow, hg.parsed, List.countP_append]
      rfl
    · rw [addRow, hg.failures, List.zipIdx_append, List.filterMap_append, Nat.zero_add]
      rfl
    · rw [addRow, hg.unseen, hoccurs]
      simp
  | ok counts =>
    obtain ⟨hcolumns, hparsed, hfailures, hunseen⟩ :=
      foldl_place_spec h (g := { g with parsed := g.parsed + 1 }) hg.columns done.length
        (hresult counts rfl)
    refine ⟨?_, ?_, ?_, fun kind => ?_⟩
    · rw [addRow, hcolumns]
      refine List.map_congr_left fun kind _ => ?_
      have hset := set_replicate (done.map (valueOf kind)) rest kind counts
      rw [List.length_map] at hset
      rw [hset, List.map_append, List.append_assoc]
      rfl
    · rw [addRow, hparsed, hg.parsed, List.countP_append]
      rfl
    · rw [addRow, hfailures, hg.failures, List.zipIdx_append, List.filterMap_append]
      exact (List.append_nil _).symm
    · rw [addRow, hunseen, hg.unseen, hoccurs, ← and_or_left]
      simp

/-- The rows that are left are taken in one after the other. -/
theorem rows (h : taxonomy.Nodup) (hg : After taxonomy done results.length g)
    (hresults : ∀ counts, .ok counts ∈ results → (counts.map Prod.fst).Nodup) :
    After taxonomy (done ++ results) 0
      ((results.zipIdx done.length).foldl (addRow taxonomy) g) := by
  induction results generalizing done g with
  | nil => simpa using hg
  | cons result rest ih =>
    have hresult : ∀ counts, result = .ok counts → (counts.map Prod.fst).Nodup := by
      rintro counts rfl
      exact hresults counts List.mem_cons_self
    have hrest := ih (hg.row h hresult) fun counts hmem =>
      hresults counts (List.mem_cons_of_mem _ hmem)
    rw [List.length_append, List.length_singleton, List.append_assoc] at hrest
    exact hrest

end After

end Gathered

/-- Behind all rows, each kind has a column of the values that are computed for it. -/
theorem gather_after {results : List (Except ParseError NodeCounts)} {taxonomy : List NodeKind}
    (h : taxonomy.Nodup)
    (hresults : ∀ counts, .ok counts ∈ results → (counts.map Prod.fst).Nodup) :
    Gathered.After taxonomy results 0 (gather results taxonomy) :=
  (Gathered.After.start taxonomy results.length).rows h hresults

/-- Going through the rows and computing kind by kind come to the same table and the same report. -/
theorem materialize_eq (t : FeatureTable) {results : List (Except ParseError NodeCounts)}
    {taxonomy : List NodeKind} (h : taxonomy.Nodup)
    (hresults : ∀ counts, .ok counts ∈ results → (counts.map Prod.fst).Nodup) :
    materialize t results taxonomy = append t results taxonomy := by
  obtain ⟨hcolumns, hparsed, hfailures, hunseen⟩ := gather_after h hresults
  have hreport : NodeKind.all.filter (· ∈ (gather results taxonomy).unseen) =
      (kindsOf results).filter fun kind => !taxonomy.contains kind := by
    rw [kindsOf, List.filter_filter]
    refine List.filter_congr fun kind _ => ?_
    have hoccurs : kind ∈ kindsOf results ↔ Occurs results kind := mem_kindsOf
    rw [kindsOf, List.mem_filter, and_iff_right kind.mem_all] at hoccurs
    rw [Bool.eq_iff_iff, decide_eq_true_iff, hunseen, ← hoccurs, Bool.and_eq_true]
    simp
  have htable : taxonomy.zipWith (fun kind values => Column.mk ⟨.syntactic, kind.label⟩ values)
      (gather results taxonomy).columns = columns results taxonomy := by
    rw [hcolumns, columns, List.zipWith_map_right, List.zipWith_self]
    simp
  rw [materialize, append, reportOf, hparsed, hfailures, hreport, htable]

end ScriptFeatures.Syntactic
