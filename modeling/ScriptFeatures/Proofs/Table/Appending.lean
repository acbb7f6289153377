import ScriptFeatures.Proofs.Syntactic.Extraction
import ScriptFeatures.Proofs.Table.Reached

/-! The extracting operations add columns at the end of a table or refuse because of a key.

* `Fresh` and `Clash` say which keys can follow those of a table and which is the first that cannot.
  One of the two holds of every list (`fresh_or_clash`).
* A loop of additions succeeds on fresh keys. On others it goes on to the first clash and stops
  there (`pushAll_of_clash`). `Appends` is the whole of it, for columns with one value a row.
* `Extraction` lists the operations. The keys that they add depend on the operation alone, not on
  the scripts (`Extraction.run_appends`).
* A taxonomy with repetitions has two ways to compute its columns, and they differ in their values.
  Neither table is ever seen, since both are refused for the same key (`materialize_eq_append`). -/

namespace ScriptFeatures.Table

open ScriptFeatures.Tree (NodeKind)

/-- Keys that can be added behind those that are taken. -/
def Fresh (taken keys : List Key) : Prop :=
  keys.Nodup ∧ ∀ key ∈ keys, key ∉ taken

instance (taken keys : List Key) : Decidable (Fresh taken keys) :=
  inferInstanceAs (Decidable (_ ∧ _))

/-- The first of some keys that is taken or stands before. -/
def Clash (taken keys : List Key) (key : Key) : Prop :=
  ∃ before after, keys = before ++ key :: after ∧ Fresh taken before ∧
    (key ∈ taken ∨ key ∈ before)

theorem Fresh.concat {taken keys : List Key} {key : Key} (h : Fresh taken keys)
    (hkey : ¬(key ∈ taken ∨ key ∈ keys)) : Fresh taken (keys ++ [key]) := by
  rw [not_or] at hkey
  constructor
  · exact List.Nodup.append h.1 (List.nodup_singleton key) (by simpa using hkey.2)
  · intro k hk
    obtain hk | hk := List.mem_append.mp hk
    · exact h.2 k hk
    · rw [List.mem_singleton.mp hk]
      exact hkey.1

theorem fresh_or_clash (taken keys : List Key) :
    Fresh taken keys ∨ ∃ key, Clash taken keys key := by
  induction keys using List.reverseRecOn with
  | nil => exact .inl ⟨List.nodup_nil, by simp⟩
  | append_singleton keys key ih =>
    obtain hfresh | ⟨first, before, after, rfl, hclash⟩ := ih
    · by_cases hkey : key ∈ taken ∨ key ∈ keys
      · exact .inr ⟨key, keys, [], rfl, hfresh, hkey⟩
      · exact .inl (hfresh.concat hkey)
    · exact .inr ⟨first, before, after ++ [key], by simp, hclash⟩

namespace FeatureTable

variable {t : FeatureTable} {columns : List Column}

/-! ## Adding columns one after the other -/

theorem pushAll_append (columns rest : List Column) :
    t.pushAll (columns ++ rest) = t.pushAll columns >>= fun u => u.pushAll rest := by
  induction columns generalizing t with
  | nil => rfl
  | cons c cs ih =>
    rw [List.cons_append, pushAll, pushAll]
    cases t.push c.key c.values with
    | error e => rfl
    | ok u => exact ih

theorem push_of_taken {key : Key} (h : key ∈ t.keys) (values : List Float) :
    t.push key values = .error (.duplicateColumn key) := by
  rw [push, if_pos ((t.contains_iff_mem_keys key).mpr h)]

theorem exists_pushAll_of_fresh (h : Fresh t.keys (columns.map Column.key))
    (hfull : ∀ c ∈ columns, c.values.length = t.size) :
    ∃ u, t.pushAll columns = .ok u ∧ u.samples = t.samples ∧ u.columns = t.columns ++ columns :=
  exists_pushAll (fun c hc => h.2 c.key (List.mem_map_of_mem hc)) h.1 hfull

/-- The additions before the first clash succeed, so its key is among those of the table by then. -/
theorem pushAll_of_clash {key : Key} (h : Clash t.keys (columns.map Column.key) key)
    (hfull : ∀ c ∈ columns, c.values.length = t.size) :
    t.pushAll columns = .error (.duplicateColumn key) := by
  obtain ⟨before, after, hsplit, hfresh, hkey⟩ := h
  obtain ⟨added, rest, rfl, rfl, hrest⟩ := List.map_eq_append_iff.mp hsplit
  obtain ⟨c, cs, rfl, rfl, rfl⟩ := List.map_eq_cons_iff.mp hrest
  obtain ⟨u, hu, -, hcolumns⟩ :=
    exists_pushAll_of_fresh hfresh fun d hd => hfull d (List.mem_append_left _ hd)
  have htaken : c.key ∈ u.keys := by
    rw [keys, hcolumns, List.map_append, List.mem_append]
    exact hkey
  rw [pushAll_append, hu]
  change u.pushAll (c :: cs) = _
  rw [pushAll, push_of_taken htaken]
  rfl

/-- What an operation makes of a table if it adds columns with the given keys at its end. It
succeeds exactly on fresh keys, and it fails exactly by the first clash. -/
structure Appends (t : FeatureTable) (added : List Key)
    (result : Except TableError FeatureTable) : Prop where
  ok_iff : (∃ u, result = .ok u) ↔ Fresh t.keys added
  appended : ∀ u, result = .ok u → u.samples = t.samples ∧
    ∃ columns, u.columns = t.columns ++ columns ∧ columns.map Column.key = added ∧
      ∀ c ∈ columns, c.values.length = t.size
  sound : ∀ u, result = .ok u → t.Sound → u.Sound
  error_iff : ∀ e, result = .error e ↔ ∃ key, Clash t.keys added key ∧ e = .duplicateColumn key

theorem pushAll_appends (hfull : ∀ c ∈ columns, c.values.length = t.size) :
    t.Appends (columns.map Column.key) (t.pushAll columns) := by
  obtain hfresh | ⟨key, hclash⟩ := fresh_or_clash t.keys (columns.map Column.key)
  · obtain ⟨u, hu, hsamples, hcolumns⟩ := exists_pushAll_of_fresh hfresh hfull
    refine ⟨iff_of_true ⟨u, hu⟩ hfresh, ?_, fun v hv h => h.pushAll hv, ?_⟩
    · intro v hv
      cases hu.symm.trans hv
      exact ⟨hsamples, columns, hcolumns, rfl, hfull⟩
    · intro e
      refine iff_of_false (by simp [hu]) ?_
      rintro ⟨key, hclash, -⟩
      exact nomatch hu.symm.trans (pushAll_of_clash hclash hfull)
  · have herror := pushAll_of_clash hclash hfull
    refine ⟨?_, by simp [herror], by simp [herror], ?_⟩
    · refine iff_of_false (by simp [herror]) ?_
      intro hfresh
      obtain ⟨u, hu, -⟩ := exists_pushAll_of_fresh hfresh hfull
      exact nomatch hu.symm.trans herror
    · intro e
      constructor
      · intro he
        cases herror.symm.trans he
        exact ⟨key, hclash, rfl⟩
      · rintro ⟨other, hother, rfl⟩
        exact pushAll_of_clash hother hfull

end FeatureTable

open FeatureTable

/-! ## The extracting operations -/

/-- The operations that compute columns from the scripts of a table with what they are given. -/
inductive Extraction
  | statistical
  | lexical (v : Lexical.Vectorizer)
  | syntactic (limits : Syntactic.Limits) (taxonomy : List NodeKind)

namespace Extraction

/-- The keys of the columns that an operation adds, in order. -/
def added : Extraction → List Key
  | statistical => Statistical.keys
  | lexical v => v.terms.map (⟨.lexical, ·⟩)
  | syntactic _ taxonomy => taxonomy.map (⟨.syntactic, ·.label⟩)

/-- The table that an operation makes, or the error that stops it. -/
def run : Extraction → FeatureTable → Except TableError FeatureTable
  | statistical, t => Statistical.extract t
  | lexical v, t => Lexical.apply v t
  | syntactic limits taxonomy, t => (Syntactic.applyTaxonomy limits taxonomy t).map (·.1)

/-- The columns that an operation computes for some scripts. -/
def columns : Extraction → List String → List Column
  | statistical, texts => Statistical.columns texts
  | lexical v, texts => v.columns texts
  | syntactic limits taxonomy, texts =>
    Syntactic.columns (texts.map (Syntactic.countsOf limits)) taxonomy

theorem run_eq (e : Extraction) (t : FeatureTable) : e.run t = t.pushAll (e.columns t.texts) := by
  cases e with
  | statistical => rfl
  | lexical v => rfl
  | syntactic limits taxonomy =>
    rw [run, Syntactic.applyTaxonomy, Syntactic.append, columns]
    cases t.pushAll (Syntactic.columns (t.texts.map (Syntactic.countsOf limits)) taxonomy) <;> rfl

theorem columns_keys (e : Extraction) (texts : List String) :
    (e.columns texts).map Column.key = e.added := by
  cases e with
  | statistical => simp [columns, added, Statistical.columns, Function.comp_def]
  | lexical v =>
    rw [columns, added, Lexical.Vectorizer.columns, List.map_map]
    conv_rhs => rw [← List.zipIdx_map_fst 0 v.terms, List.map_map]
    rfl
  | syntactic limits taxonomy => simp [columns, added, Syntactic.columns, Function.comp_def]

theorem columns_full (e : Extraction) (texts : List String) :
    ∀ c ∈ e.columns texts, c.values.length = texts.length := by
  intro c hc
  cases e with
  | statistical =>
    obtain ⟨entry, -, rfl⟩ := List.mem_map.mp hc
    simp
  | lexical v =>
    obtain ⟨entry, -, rfl⟩ := List.mem_map.mp hc
    simp [Lexical.Vectorizer.transform]
  | syntactic limits taxonomy =>
    obtain ⟨kind, -, rfl⟩ := List.mem_map.mp hc
    simp

/-- Whatever table, vocabulary and taxonomy an operation is given, it appends its columns or names
the first key that cannot be added. -/
theorem run_appends (e : Extraction) (t : FeatureTable) : t.Appends e.added (e.run t) := by
  have hfull : ∀ c ∈ e.columns t.texts, c.values.length = t.size := by
    simpa [texts, size] using e.columns_full t.texts
  rw [run_eq, ← e.columns_keys t.texts]
  exact pushAll_appends hfull

/-- A vocabulary that meets a column of the table before it repeats itself, a taxonomy that repeats
itself, and both without what is in the way. -/
theorem run_appends_repeated :
    let a : Key := ⟨.lexical, "a"⟩
    let t : FeatureTable :=
      { samples := [.ofScript "b a", .ofScript ""], columns := [⟨a, [1, 2]⟩] }
    let vocabulary (terms : List String) : Lexical.Vectorizer :=
      ⟨terms, terms.map fun _ => 1, false, false, 2, ∅⟩
    let limits : Syntactic.Limits := ⟨100, 10, 10, 1⟩
    (lexical (vocabulary ["b", "a", "b"])).run t = .error (.duplicateColumn a) ∧
      (syntactic limits [.literal, .tryStatement, .literal]).run t =
        .error (.duplicateColumn ⟨.syntactic, "Literal"⟩) ∧
      (∃ u, (lexical (vocabulary ["b"])).run t = .ok u ∧ u.Sound) ∧
      ∃ u, (syntactic limits [.literal, .tryStatement]).run t = .ok u ∧
        ∃ columns, u.columns = ⟨a, [1, 2]⟩ :: columns ∧
          columns.map Column.key = [⟨.syntactic, "Literal"⟩, ⟨.syntactic, "TryStatement"⟩] := by
  intro a t vocabulary limits
  have hsound : t.Sound := ⟨by decide, by simp [t, size]⟩
  refine ⟨?_, ?_, ?_, ?_⟩
  · have happends := (lexical (vocabulary ["b", "a", "b"])).run_appends t
    apply (happends.error_iff _).mpr
    exact ⟨a, ⟨[⟨.lexical, "b"⟩], [⟨.lexical, "b"⟩], rfl, by decide, by decide⟩, rfl⟩
  · have happends := (syntactic limits [.literal, .tryStatement, .literal]).run_appends t
    apply (happends.error_iff _).mpr
    exact ⟨_, ⟨[⟨.syntactic, "Literal"⟩, ⟨.syntactic, "TryStatement"⟩], [], rfl,
      by decide, by decide⟩, rfl⟩
  · have happends := (lexical (vocabulary ["b"])).run_appends t
    obtain ⟨u, hu⟩ := happends.ok_iff.mpr (by decide)
    exact ⟨u, hu, happends.sound u hu hsound⟩
  · have happends := (syntactic limits [.literal, .tryStatement]).run_appends t
    obtain ⟨u, hu⟩ := happends.ok_iff.mpr (by decide)
    obtain ⟨-, columns, hcolumns, hkeys, -⟩ := happends.appended u hu
    exact ⟨u, hu, columns, hcolumns, hkeys⟩

end Extraction

end ScriptFeatures.Table

namespace ScriptFeatures.Syntactic

open Table (Key Column FeatureTable TableError)
open Table.FeatureTable (pushAll_of_clash)
open ScriptFeatures.Tree (NodeKind)

/-! ## Taxonomies with repetitions -/

namespace Gathered

variable {taxonomy : List NodeKind}

theorem place_lengths (g : Gathered) (row : Nat) (entry : NodeKind × Nat) :
    (g.place taxonomy row entry).columns.map List.length = g.columns.map List.length := by
  obtain ⟨kind, n⟩ := entry
  rw [place]
  cases position? taxonomy kind with
  | none => rfl
  | some j =>
    apply List.ext_getElem?
    intro i
    by_cases hi : j = i <;> cases h : g.columns[i]? <;> simp [hi, h]

theorem foldl_place_lengths (g : Gathered) (row : Nat) (counts : NodeCounts) :
    (counts.foldl (place taxonomy row) g).columns.map List.length =
      g.columns.map List.length := by
  induction counts generalizing g with
  | nil => rfl
  | cons entry rest ih => rw [List.foldl_cons, ih, place_lengths]

theorem foldl_addRow_lengths (g : Gathered)
    (results : List (Except ParseError NodeCounts × Nat)) :
    (results.foldl (addRow taxonomy) g).columns.map List.length =
      g.columns.map List.length := by
  induction results generalizing g with
  | nil => rfl
  | cons entry rest ih =>
    obtain ⟨result, row⟩ := entry
    rw [List.foldl_cons, ih]
    cases result with
    | error e => rfl
    | ok counts => exact foldl_place_lengths _ row counts

end Gathered

/-- What rows are gathered into has the keys and the lengths of what is computed kind by kind. -/
theorem gather_shape (results : List (Except ParseError NodeCounts)) (taxonomy : List NodeKind) :
    let columns := taxonomy.zipWith (fun kind values => Column.mk ⟨.syntactic, kind.label⟩ values)
      (gather results taxonomy).columns
    columns.map Column.key = taxonomy.map (⟨.syntactic, ·.label⟩) ∧
      ∀ c ∈ columns, c.values.length = results.length := by
  have hlengths : (gather results taxonomy).columns.map List.length =
      List.replicate taxonomy.length results.length := by
    rw [gather, Gathered.foldl_addRow_lengths]
    simp [Gathered.start]
  have hlength : taxonomy.length ≤ (gather results taxonomy).columns.length := by
    simpa using (congrArg List.length hlengths).ge
  intro columns
  have hcolumns : columns = (taxonomy.zip (gather results taxonomy).columns).map
      (Function.uncurry fun kind values => ⟨⟨.syntactic, kind.label⟩, values⟩) :=
    List.map_uncurry_zip_eq_zipWith.symm
  rw [hcolumns]
  constructor
  · conv_rhs => rw [← List.map_fst_zip hlength, List.map_map]
    rw [List.map_map]
    rfl
  · intro c hc
    obtain ⟨⟨kind, values⟩, hmem, rfl⟩ := List.mem_map.mp hc
    have hvalues := List.mem_map_of_mem (f := List.length) (List.of_mem_zip hmem).2
    rw [hlengths] at hvalues
    exact List.eq_of_mem_replicate hvalues

/-- Row by row or kind by kind, the outcome is the same for every taxonomy. -/
theorem materialize_eq_append (limits : Limits) (t : FeatureTable) (taxonomy : List NodeKind) :
    materialize t (t.texts.map (countsOf limits)) taxonomy =
      append t (t.texts.map (countsOf limits)) taxonomy := by
  by_cases h : taxonomy.Nodup
  · exact materialize_countsOf limits t h
  · obtain ⟨hkeys, hfull⟩ := gather_shape (t.texts.map (countsOf limits)) taxonomy
    obtain hfresh | ⟨key, hclash⟩ := Table.fresh_or_clash t.keys
      (taxonomy.map (⟨.syntactic, ·.label⟩))
    · exact absurd hfresh.1.of_map h
    · have hsize : (t.texts.map (countsOf limits)).length = t.size := by
        simp [FeatureTable.texts, FeatureTable.size]
      rw [hsize] at hfull
      have hmaterialize := pushAll_of_clash (hkeys ▸ hclash) hfull
      have happend : t.pushAll (columns (t.texts.map (countsOf limits)) taxonomy) =
          .error (.duplicateColumn key) :=
        pushAll_of_clash (by simpa [columns, Function.comp_def] using hclash)
          (by simp [columns, FeatureTable.texts, FeatureTable.size])
      rw [materialize, hmaterialize, append, happend]
      rfl

end ScriptFeatures.Syntactic
