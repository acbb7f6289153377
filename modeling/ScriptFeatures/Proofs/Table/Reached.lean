import ScriptFeatures.Lexical.Columns
import ScriptFeatures.Proofs.Table.Feature
import ScriptFeatures.Schema.Alignment
import ScriptFeatures.Statistical.Columns
import ScriptFeatures.Syntactic.Columns

/-! What holds of every table that a run of operations can make.

* `FeatureTable.Sound`: the keys are distinct and no column is shorter or longer than the table. On
  a sound table the index is exact, and a key leads to the one column stored under it.
* One lemma for each operation says that it keeps a table sound and its samples in place.
* `Reached samples t`: a run of operations that began with `samples` ends with `t`. An operation
  that fails leaves the table as it was; aligning joins two runs and goes on with one of them. -/

namespace ScriptFeatures.Table

open Schema (Aligner ReferenceSchema Side)

namespace FeatureTable

/-- The columns fit the table: each key has one column, and each column has one value a row. -/
structure Sound (t : FeatureTable) : Prop where
  nodup : t.keys.Nodup
  full : ∀ c ∈ t.columns, c.values.length = t.size

variable {t u : FeatureTable}

/-! ## Finding columns -/

/-- The index of a sound table maps the keys to their positions and nothing else. -/
theorem Sound.index_iff (h : t.Sound) (key : Key) (i : Nat) :
    t.index[key]? = some i ↔ t.keys[i]? = some key := by
  rw [t.index_eq]
  exact getElem?_indexOf_iff h.nodup key i

/-- Of a sound table a key gets the values stored under it. -/
theorem Sound.column?_iff (h : t.Sound) (key : Key) (values : List Float) :
    t.column? key = some values ↔ ⟨key, values⟩ ∈ t.columns := by
  rw [column?_eq_values?, values?, Option.map_eq_some_iff]
  simp only [find?_reverse_key_iff Column.key h.nodup]
  constructor
  · rintro ⟨c, ⟨hc, rfl⟩, rfl⟩
    exact hc
  · exact fun hc => ⟨_, ⟨hc, rfl⟩, rfl⟩

/-! ## Adding columns -/

theorem Sound.ofSamples (samples : List Sample) : (ofSamples samples).Sound where
  nodup := List.nodup_nil
  full := fun _ h => nomatch h

/-- A column is added if and only if its key is new and it has one value a row. -/
theorem push_eq_ok_iff {key : Key} {values : List Float} :
    t.push key values = .ok u ↔
      key ∉ t.keys ∧ values.length = t.size ∧ u.samples = t.samples ∧
        u.columns = t.columns ++ [⟨key, values⟩] := by
  have hcontains := t.contains_iff_mem_keys key
  rw [push]
  split
  · rename_i h
    exact iff_of_false (by simp) fun h' => h'.1 (hcontains.mp h)
  · rename_i h
    split
    · rename_i hlength
      exact iff_of_false (by simp) fun h' => hlength h'.2.1
    · rename_i hlength
      rw [Except.ok.injEq]
      constructor
      · rintro rfl
        exact ⟨mt hcontains.mpr h, not_not.mp hlength, rfl, rfl⟩
      · rintro ⟨-, -, hsamples, hcolumns⟩
        exact eq_of_columns_eq hsamples.symm hcolumns.symm

/-- Columns with new and distinct keys that have one value a row can be added. -/
theorem exists_pushAll {columns : List Column} (hnew : ∀ c ∈ columns, c.key ∉ t.keys)
    (hnodup : (columns.map Column.key).Nodup) (hfull : ∀ c ∈ columns, c.values.length = t.size) :
    ∃ u, t.pushAll columns = .ok u ∧ u.samples = t.samples ∧ u.columns = t.columns ++ columns := by
  induction columns generalizing t with
  | nil => exact ⟨t, rfl, rfl, (List.append_nil _).symm⟩
  | cons c cs ih =>
    rw [List.forall_mem_cons] at hnew hfull
    rw [List.map_cons, List.nodup_cons] at hnodup
    let v : FeatureTable := { samples := t.samples, columns := t.columns ++ [c] }
    have hpush : t.push c.key c.values = .ok v := push_eq_ok_iff.mpr ⟨hnew.1, hfull.1, rfl, rfl⟩
    have hnew' : ∀ d ∈ cs, d.key ∉ v.keys := by
      intro d hd
      rw [keys, List.map_append, List.mem_append, not_or, List.map_singleton, List.mem_singleton]
      refine ⟨hnew.2 d hd, fun heq => hnodup.1 ?_⟩
      exact heq ▸ List.mem_map_of_mem hd
    obtain ⟨u, hu, hsamples, hcolumns⟩ := ih hnew' hnodup.2 hfull.2
    rw [pushAll, hpush]
    refine ⟨u, hu, hsamples, ?_⟩
    rw [hcolumns, List.append_assoc]
    rfl

theorem Sound.push (h : t.Sound) {key : Key} {values : List Float}
    (hpush : t.push key values = .ok u) : u.Sound := by
  obtain ⟨hnew, hlength, hsamples, hcolumns⟩ := push_eq_ok_iff.mp hpush
  have hkeys : u.keys = t.keys ++ [key] := by
    rw [keys, hcolumns, List.map_append]
    rfl
  have hsize : u.size = t.size := congrArg List.length hsamples
  constructor
  · rw [hkeys, List.nodup_append]
    refine ⟨h.nodup, List.nodup_singleton key, fun k hk k' hk' => ?_⟩
    rw [List.mem_singleton.mp hk']
    exact ne_of_mem_of_not_mem hk hnew
  · intro c hc
    rw [hcolumns, List.mem_append, List.mem_singleton] at hc
    rw [hsize]
    obtain hc | rfl := hc
    · exact h.full c hc
    · exact hlength

theorem Sound.pushAll (h : t.Sound) {columns : List Column}
    (hpush : t.pushAll columns = .ok u) : u.Sound := by
  induction columns generalizing t with
  | nil =>
    cases hpush
    exact h
  | cons c cs ih =>
    obtain ⟨v, hv, hrest⟩ := Outcome.bind_eq_ok_iff.mp hpush
    exact ih (h.push hv) hrest

/-! ## Removing and choosing columns -/

theorem drop_samples (keys : List Key) : (t.drop keys).samples = t.samples := by
  rw [drop]
  split <;> rfl

theorem drop_columns (keys : List Key) :
    (t.drop keys).columns = t.columns.filter fun c => !keys.contains c.key := by
  rw [drop]
  split
  · rename_i h
    rw [List.isEmpty_iff.mp h]
    simp
  · rfl

theorem Sound.drop (h : t.Sound) (keys : List Key) : (t.drop keys).Sound := by
  have hsub : (t.drop keys).columns.Sublist t.columns := by
    rw [drop_columns]
    exact List.filter_sublist
  constructor
  · exact h.nodup.sublist (hsub.map Column.key)
  · intro c hc
    rw [size, drop_samples]
    exact h.full c (hsub.subset hc)

theorem columnsFor_keys (used keys : List Key) :
    (t.columnsFor used keys).map Column.key = keys := by
  induction keys generalizing used with
  | nil => rfl
  | cons key keys ih => rw [columnsFor, List.map_cons, ih]

theorem Sound.length_values? (h : t.Sound) {key : Key} {values : List Float}
    (hvalues : t.values? key = some values) : values.length = t.size := by
  obtain ⟨c, hfind, rfl⟩ := Option.map_eq_some_iff.mp hvalues
  exact h.full c (List.mem_reverse.mp (List.mem_of_find?_eq_some hfind))

theorem Sound.columnsFor_full (h : t.Sound) (used keys : List Key) :
    ∀ c ∈ t.columnsFor used keys, c.values.length = t.size := by
  have hzeros : t.zeros.length = t.size := List.length_replicate
  induction keys generalizing used with
  | nil => exact fun c hc => nomatch hc
  | cons key keys ih =>
    rw [columnsFor, List.forall_mem_cons]
    refine ⟨?_, ih (key :: used)⟩
    dsimp only
    split
    · exact hzeros
    · cases hvalues : t.values? key with
      | none => exact hzeros
      | some values => exact h.length_values? hvalues

theorem Sound.project (h : t.Sound) {keys : List Key} (hkeys : keys.Nodup) :
    (t.project keys).Sound where
  nodup := by
    have hproject : (t.project keys).keys = keys := columnsFor_keys [] keys
    rwa [hproject]
  full := h.columnsFor_full [] keys

/-! ## Aligning two tables -/

/-- The keys that restricting a batch to a reference asks for are distinct, for those out of scope
come from one table, those in scope from the other. -/
theorem Sound.nodup_shared (ht : t.Sound) (hu : u.Sound) (scope : Option Group) :
    ((t.keys.filter fun key => !inScope scope key) ++
      (u.keysIn scope).filter (t.keysIn scope).contains).Nodup := by
  rw [List.nodup_append]
  refine ⟨ht.nodup.filter _, (hu.nodup.filter _).filter _, ?_⟩
  intro key houtside key' hshared heq
  have hout : inScope scope key = false := by simpa using (List.mem_filter.mp houtside).2
  have hin : inScope scope key' = true := (List.mem_filter.mp (List.mem_filter.mp hshared).1).2
  rw [heq, hin] at hout
  exact nomatch hout

theorem Sound.intersect (ht : t.Sound) (hu : u.Sound) (a : Aligner) :
    (a.intersect t u).table.Sound :=
  ht.project (ht.nodup_shared hu a.scope)

/-- What is left of two things, one for each side. -/
def pick {α : Type} (batch reference : α) : Side → α
  | .batch => batch
  | .reference => reference

theorem removeSurplus_table (a : Aligner) (batch reference : FeatureTable) :
    ∃ keys, (a.removeSurplus batch reference).table =
      (pick batch reference (a.removeSurplus batch reference).side).drop keys := by
  rw [Aligner.removeSurplus]
  split
  · exact ⟨_, rfl⟩
  · exact ⟨_, rfl⟩

end FeatureTable

/-! ## Runs -/

/-- The table after an operation that may fail: if it does, the table is as it was. -/
def FeatureTable.after {ε : Type} (t : FeatureTable) : Except ε FeatureTable → FeatureTable
  | .ok u => u
  | .error _ => t

open FeatureTable (pick)

/-- `Reached samples t`: operations that began with a new table of these samples end with `t`. -/
inductive Reached : List Sample → FeatureTable → Prop
  | new (samples : List Sample) : Reached samples (.ofSamples samples)
  | push {samples : List Sample} {t : FeatureTable} (run : Reached samples t) (key : Key)
      (values : List Float) : Reached samples (t.after (t.push key values))
  | drop {samples : List Sample} {t : FeatureTable} (run : Reached samples t) (keys : List Key) :
      Reached samples (t.drop keys)
  | project {samples : List Sample} {t : FeatureTable} (run : Reached samples t)
      {keys : List Key} (distinct : keys.Nodup) : Reached samples (t.project keys)
  | schema {samples : List Sample} {t : FeatureTable} (run : Reached samples t)
      {schema : ReferenceSchema} (distinct : schema.columns.Nodup) :
      Reached samples (schema.project t)
  | intersect {samples others : List Sample} {batch reference : FeatureTable}
      (run : Reached samples batch) (run' : Reached others reference) (a : Aligner) :
      Reached samples (a.intersect batch reference).table
  | removeSurplus {samples others : List Sample} {batch reference : FeatureTable}
      (run : Reached samples batch) (run' : Reached others reference) (a : Aligner) :
      Reached (pick samples others (a.removeSurplus batch reference).side)
        (a.removeSurplus batch reference).table
  | statistical {samples : List Sample} {t : FeatureTable} (run : Reached samples t) :
      Reached samples (t.after (Statistical.extract t))
  | vocabulary {samples : List Sample} {t : FeatureTable} (run : Reached samples t)
      (v : Lexical.Vectorizer) : Reached samples (t.after (Lexical.apply v t))
  | lexical {samples : List Sample} {t : FeatureTable} (run : Reached samples t)
      (config : Config.LexicalConfig) :
      Reached samples (t.after ((Lexical.extract config t).map (·.1)))
  | taxonomy {samples : List Sample} {t : FeatureTable} (run : Reached samples t)
      (limits : Syntactic.Limits) (kinds : List Tree.NodeKind) :
      Reached samples (t.after ((Syntactic.applyTaxonomy limits kinds t).map (·.1)))
  | syntactic {samples : List Sample} {t : FeatureTable} (run : Reached samples t)
      (limits : Syntactic.Limits) :
      Reached samples (t.after ((Syntactic.extract limits t).map (·.1)))

namespace FeatureTable

/-- What every operation keeps: the table is sound and holds the given samples. -/
def Keeps (samples : List Sample) (t : FeatureTable) : Prop :=
  t.Sound ∧ t.samples = samples

variable {samples : List Sample} {t : FeatureTable}

/-- An operation that keeps the table when it succeeds keeps it in any case. -/
theorem Keeps.after {ε : Type} (h : t.Keeps samples) {result : Except ε FeatureTable}
    (hresult : ∀ u, result = .ok u → u.Keeps samples) : (t.after result).Keeps samples := by
  cases result with
  | error e => exact h
  | ok u => exact hresult u rfl

/-- Whatever columns an extractor computes, adding them keeps the table. -/
theorem Keeps.pushAll (h : t.Keeps samples) {columns : List Column} {u : FeatureTable}
    (hpush : t.pushAll columns = .ok u) : u.Keeps samples :=
  ⟨h.1.pushAll hpush, (pushAll_samples hpush).trans h.2⟩

theorem Keeps.append (h : t.Keeps samples)
    (results : List (Except Syntactic.ParseError Syntactic.NodeCounts))
    (kinds : List Tree.NodeKind) {u : FeatureTable}
    (hu : (Syntactic.append t results kinds).map (·.1) = .ok u) : u.Keeps samples := by
  obtain ⟨r, hr, rfl⟩ := Outcome.map_eq_ok_iff.mp hu
  obtain ⟨v, hv, hreturn⟩ := Outcome.bind_eq_ok_iff.mp hr
  cases hreturn
  exact h.pushAll hv

end FeatureTable

/-- A run keeps what its operations keep. -/
theorem Reached.keeps {samples : List Sample} {t : FeatureTable} (run : Reached samples t) :
    t.Keeps samples := by
  induction run with
  | new samples => exact ⟨.ofSamples samples, rfl⟩
  | push _ key values ih =>
    refine ih.after fun u hu => ⟨ih.1.push hu, ?_⟩
    exact (FeatureTable.push_eq_ok_iff.mp hu).2.2.1.trans ih.2
  | drop _ keys ih => exact ⟨ih.1.drop keys, (FeatureTable.drop_samples keys).trans ih.2⟩
  | project _ distinct ih => exact ⟨ih.1.project distinct, ih.2⟩
  | schema _ distinct ih => exact ⟨ih.1.project distinct, ih.2⟩
  | intersect _ _ a ih ih' => exact ⟨ih.1.intersect ih'.1 a, ih.2⟩
  | @removeSurplus samples others batch reference _ _ a ih ih' =>
    obtain ⟨keys, htable⟩ := FeatureTable.removeSurplus_table a batch reference
    rw [htable]
    cases (a.removeSurplus batch reference).side with
    | batch => exact ⟨ih.1.drop keys, (FeatureTable.drop_samples keys).trans ih.2⟩
    | reference => exact ⟨ih'.1.drop keys, (FeatureTable.drop_samples keys).trans ih'.2⟩
  | statistical _ ih => exact ih.after fun u hu => ih.pushAll hu
  | vocabulary _ v ih => exact ih.after fun u hu => ih.pushAll hu
  | lexical _ config ih =>
    refine ih.after fun u hu => ?_
    obtain ⟨r, hr, rfl⟩ := Outcome.map_eq_ok_iff.mp hu
    obtain ⟨v, hv, hreturn⟩ := Outcome.bind_eq_ok_iff.mp hr
    cases hreturn
    exact ih.pushAll hv
  | taxonomy _ limits kinds ih => exact ih.after fun u hu => ih.append _ kinds hu
  | syntactic _ limits ih => exact ih.after fun u hu => ih.append _ _ hu

/-- Of every table that operations can make from a new one: the keys are distinct; every column has
one value for each sample; the index maps the keys to the positions of their columns and nothing
else; the samples are those of the new table; and a key finds exactly the values stored under it. -/
theorem Reached.invariant {samples : List Sample} {t : FeatureTable} (run : Reached samples t) :
    t.keys.Nodup ∧ (∀ c ∈ t.columns, c.values.length = samples.length) ∧
      (∀ (key : Key) (i : Nat), t.index[key]? = some i ↔ t.keys[i]? = some key) ∧
      t.samples = samples ∧
      ∀ key values, t.column? key = some values ↔ ⟨key, values⟩ ∈ t.columns := by
  obtain ⟨hsound, hsamples⟩ := run.keeps
  refine ⟨hsound.nodup, ?_, hsound.index_iff, hsamples, hsound.column?_iff⟩
  rw [← hsamples]
  exact hsound.full

/-- A batch of two scripts gets a column, is projected onto it and a new one, fails to get the
column again, and is restricted to a reference of one script that has the old column only. -/
theorem Reached.invariant_restricted :
    let a : Key := ⟨.lexical, "a"⟩
    let b : Key := ⟨.lexical, "b"⟩
    let new : FeatureTable := .ofSamples [.ofScript "eval(a)", .ofScript ""]
    let other : FeatureTable := .ofSamples [.ofScript "a"]
    let projected := (new.after (new.push a [1, 2])).project [b, a]
    let batch := projected.after (projected.push a [3, 4])
    let out := (Aligner.mk .intersect none).intersect batch (other.after (other.push a [5]))
    Reached new.samples out.table ∧ out.table.keys.Nodup ∧ out.table.samples = new.samples ∧
      ∀ key values, out.table.column? key = some values ↔ ⟨key, values⟩ ∈ out.table.columns := by
  intro a b new other projected batch out
  have hprojected : Reached new.samples projected :=
    ((Reached.new new.samples).push a [1, 2]).project (by decide)
  have hout : Reached new.samples out.table :=
    (hprojected.push a [3, 4]).intersect ((Reached.new other.samples).push a [5]) _
  obtain ⟨hnodup, -, -, hsamples, hcolumn⟩ := hout.invariant
  exact ⟨hout, hnodup, hsamples, hcolumn⟩

end ScriptFeatures.Table
