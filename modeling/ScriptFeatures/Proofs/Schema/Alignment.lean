import ScriptFeatures.Proofs.Table.Algebra
import ScriptFeatures.Proofs.Text.Tally

/-! Aligning a batch with a reference table.

* Keys are linearly ordered, so a set of keys has one increasing list. The surplus of a table over
  another is that list (`mem_surplus`, `surplus_increasing`).
* `Restricted` is what restricting a batch to a reference comes to, column by column and key by key.
  A restricted batch has no surplus left, and restricting it again changes nothing.
* `Trimmed` is what remains of the side that loses its surplus. Whichever side that is, it keeps the
  keys in scope that both have, like the restricted batch. -/

namespace ScriptFeatures

open Table (Key Group FeatureTable)
open Table.FeatureTable (inScope pick)

namespace Table

/-! ## The order of keys -/

theorem Group.rank_injective {g h : Group} (heq : g.rank = h.rank) : g = h := by
  cases g <;> cases h <;> grind [Group.rank]

instance : Std.IsLinearOrder Key where
  le_refl a := .inr ⟨rfl, Std.le_refl a.name⟩
  le_trans a b c hab hbc := by
    obtain hab | ⟨hab, hnames⟩ := hab
    · obtain hbc | ⟨hbc, -⟩ := hbc
      · exact .inl (Nat.lt_trans hab hbc)
      · exact .inl (hbc ▸ hab)
    · obtain hbc | ⟨hbc, hnames'⟩ := hbc
      · exact .inl (hab ▸ hbc)
      · exact .inr ⟨hab.trans hbc, Std.le_trans hnames hnames'⟩
  le_antisymm a b hab hba := by
    obtain hab | ⟨hab, hnames⟩ := hab <;> obtain hba | ⟨hba, hnames'⟩ := hba
    · omega
    · omega
    · omega
    · obtain ⟨group, name⟩ := a
      obtain ⟨group', name'⟩ := b
      cases Group.rank_injective hab
      cases Std.le_antisymm hnames hnames'
      rfl
  le_total a b := by
    obtain h | h | h := Nat.lt_trichotomy a.group.rank b.group.rank
    · exact .inl (.inl h)
    · obtain hnames | hnames := Std.le_total (a := a.name) (b := b.name)
      · exact .inl (.inr ⟨h, hnames⟩)
      · exact .inr (.inr ⟨h.symm, hnames⟩)
    · exact .inr (.inl h)

theorem FeatureTable.mem_keysIn {t : FeatureTable} {scope : Option Group} {key : Key} :
    key ∈ t.keysIn scope ↔ key ∈ t.keys ∧ inScope scope key = true :=
  List.mem_filter

end Table

namespace Schema.Aligner

variable {a : Aligner} {t u batch reference : FeatureTable} {key : Key}

/-! ## The surplus of a table -/

theorem mem_surplus :
    key ∈ a.surplus t u ↔ inScope a.scope key = true ∧ key ∈ t.keys ∧ key ∉ u.keys := by
  rw [surplus, Text.mem_distinct, List.mem_filter, FeatureTable.mem_keysIn]
  simp only [Bool.not_eq_true', ← Bool.not_eq_true, List.contains_iff_mem, FeatureTable.mem_keysIn]
  tauto

theorem surplus_increasing (a : Aligner) (t u : FeatureTable) :
    (a.surplus t u).Pairwise Text.Before :=
  Text.distinct_increasing _

theorem surplus_eq_nil_iff :
    a.surplus t u = [] ↔ ∀ key ∈ t.keysIn a.scope, key ∈ u.keysIn a.scope := by
  simp only [List.eq_nil_iff_forall_not_mem, mem_surplus, FeatureTable.mem_keysIn]
  grind

/-- Of the other table a surplus depends on the keys that it shares with the first. -/
theorem surplus_congr {v : FeatureTable}
    (h : ∀ key ∈ t.keysIn a.scope, key ∈ u.keys ↔ key ∈ v.keys) :
    a.surplus t u = a.surplus t v := by
  unfold surplus
  apply congrArg Text.distinct
  apply List.filter_congr
  intro key hkey
  simp [FeatureTable.mem_keysIn, h key hkey]

/-- A table keeps the shared keys in scope if it keeps what is out of scope or in the other. -/
theorem mem_keysIn_of_mem_keys {kept : FeatureTable}
    (h : key ∈ kept.keys ↔ key ∈ t.keys ∧ (inScope a.scope key = true → key ∈ u.keys)) :
    key ∈ kept.keysIn a.scope ↔ key ∈ t.keysIn a.scope ∧ key ∈ u.keysIn a.scope := by
  simp only [FeatureTable.mem_keysIn, h]
  tauto

/-! ## Restricting the batch -/

/-- The keys of a restricted batch: those out of scope, then the shared ones as the reference has
them. -/
def restrictedKeys (a : Aligner) (batch reference : FeatureTable) : List Key :=
  batch.keys.filter (fun key => !inScope a.scope key) ++
    (reference.keysIn a.scope).filter (batch.keysIn a.scope).contains

theorem intersect_table :
    (a.intersect batch reference).table = batch.project (a.restrictedKeys batch reference) := rfl

theorem mem_restrictedKeys : key ∈ a.restrictedKeys batch reference ↔
    key ∈ batch.keys ∧ (inScope a.scope key = true → key ∈ reference.keys) := by
  simp only [restrictedKeys, List.mem_append, List.mem_filter, FeatureTable.mem_keysIn,
    List.contains_iff_mem]
  cases inScope a.scope key <;> simp [and_comm]

theorem mem_keys_intersect : key ∈ (a.intersect batch reference).table.keys ↔
    key ∈ batch.keys ∧ (inScope a.scope key = true → key ∈ reference.keys) := by
  rw [intersect_table, FeatureTable.project_keys, mem_restrictedKeys]

theorem mem_keysIn_intersect : key ∈ (a.intersect batch reference).table.keysIn a.scope ↔
    key ∈ batch.keysIn a.scope ∧ key ∈ reference.keysIn a.scope :=
  mem_keysIn_of_mem_keys mem_keys_intersect

theorem restrictedKeys_eq : a.restrictedKeys batch reference =
    batch.keys.filter (fun key => !inScope a.scope key) ++
      reference.keys.filter fun key => inScope a.scope key && batch.keys.contains key := by
  rw [restrictedKeys, FeatureTable.keysIn, FeatureTable.keysIn, List.filter_filter]
  congr 1
  apply List.filter_congr
  intro key _
  rw [Bool.eq_iff_iff]
  simp
  tauto

/-- Restricting again asks for the same keys. -/
theorem restrictedKeys_intersect :
    a.restrictedKeys (a.intersect batch reference).table reference =
      a.restrictedKeys batch reference := by
  have hshared : (reference.keysIn a.scope).filter
        ((a.intersect batch reference).table.keysIn a.scope).contains =
      (reference.keysIn a.scope).filter (batch.keysIn a.scope).contains := by
    apply List.filter_congr
    intro key hkey
    rw [Bool.eq_iff_iff]
    simp [mem_keysIn_intersect, hkey]
  have houtside : ((reference.keysIn a.scope).filter (batch.keysIn a.scope).contains).filter
      (fun key => !inScope a.scope key) = [] := by
    rw [List.filter_eq_nil_iff]
    intro key hkey
    have hscope := (FeatureTable.mem_keysIn.mp (List.mem_filter.mp hkey).1).2
    simp [hscope]
  rw [restrictedKeys, hshared, intersect_table, FeatureTable.project_keys, restrictedKeys,
    List.filter_append, houtside]
  simp

/-- What a batch that was restricted to a reference comes to. -/
structure Restricted (scope : Option Group) (batch reference : FeatureTable) (out : Alignment) :
    Prop where
  side : out.side = .batch
  sound : out.table.Sound
  samples : out.table.samples = batch.samples
  keys : out.table.keys = batch.keys.filter (fun key => !inScope scope key) ++
    reference.keys.filter fun key => inScope scope key && batch.keys.contains key
  columns : ∀ c ∈ out.table.columns, c ∈ batch.columns
  dropped : ∀ key, key ∈ out.dropped ↔
    inScope scope key = true ∧ key ∈ batch.keys ∧ key ∉ reference.keys
  missing : ∀ key, key ∈ out.missing ↔
    inScope scope key = true ∧ key ∈ reference.keys ∧ key ∉ batch.keys
  increasing : out.dropped.Pairwise Text.Before ∧ out.missing.Pairwise Text.Before

theorem restricted (hbatch : batch.Sound) (hreference : reference.Sound) (a : Aligner) :
    Restricted a.scope batch reference (a.intersect batch reference) where
  side := rfl
  sound := hbatch.intersect hreference a
  samples := rfl
  keys := by rw [intersect_table, FeatureTable.project_keys, restrictedKeys_eq]
  columns := by
    rw [intersect_table]
    apply hbatch.project_subset (hbatch.nodup_shared hreference a.scope)
    intro key hkey
    exact (mem_restrictedKeys.mp hkey).1
  dropped _ := mem_surplus
  missing _ := mem_surplus
  increasing := ⟨surplus_increasing a batch reference, surplus_increasing a reference batch⟩

/-- A batch that was restricted to a reference has the shared columns with its own values, and is
fixed by restricting it again. -/
theorem intersect_restricted (hbatch : batch.Sound) (hreference : reference.Sound) (a : Aligner) :
    let out := a.intersect batch reference
    let again := a.intersect out.table reference
    Restricted a.scope batch reference out ∧ again.table = out.table ∧ again.dropped = [] ∧
      again.missing = out.missing := by
  intro out again
  refine ⟨restricted hbatch hreference a, ?_, ?_, ?_⟩
  · have hnodup : (a.restrictedKeys batch reference).Nodup :=
      hbatch.nodup_shared hreference a.scope
    change (batch.project _).project (a.restrictedKeys out.table reference) = _
    rw [restrictedKeys_intersect]
    exact FeatureTable.project_project hnodup hnodup fun key hkey _ => hkey
  · apply surplus_eq_nil_iff.mpr
    intro key hkey
    exact (mem_keysIn_intersect.mp hkey).2
  · apply surplus_congr
    intro key hkey
    rw [mem_keys_intersect]
    exact and_iff_left fun _ => (FeatureTable.mem_keysIn.mp hkey).1

/-- Lexical columns among others, in another order on the side of the reference, which has fewer
rows. -/
theorem intersect_restricted_interleaved :
    let a : Key := ⟨.lexical, "a"⟩
    let b : Key := ⟨.lexical, "b"⟩
    let c : Key := ⟨.lexical, "c"⟩
    let d : Key := ⟨.lexical, "d"⟩
    let other : Key := ⟨.statistical, "a"⟩
    let batch : FeatureTable :=
      { samples := [.ofScript "a", .ofScript ""]
        columns := [⟨a, [1, 2]⟩, ⟨other, [3, 4]⟩, ⟨b, [5, 6]⟩, ⟨d, [7, 8]⟩] }
    let reference : FeatureTable :=
      { samples := [.ofScript "b"]
        columns := [⟨b, [1]⟩, ⟨⟨.syntactic, "n"⟩, [2]⟩, ⟨c, [3]⟩, ⟨a, [4]⟩] }
    let aligner : Aligner := ⟨.intersect, some .lexical⟩
    let out := aligner.intersect batch reference
    batch.Sound ∧ reference.Sound ∧ out.table.keys = [other, b, a] ∧
      (∀ column ∈ out.table.columns, column ∈ batch.columns) ∧ d ∈ out.dropped ∧ c ∈ out.missing ∧
      (aligner.intersect out.table reference).table = out.table := by
  intro a b c d other batch reference aligner out
  have hbatch : batch.Sound := ⟨by decide, by simp [batch, FeatureTable.size]⟩
  have hreference : reference.Sound := ⟨by decide, by simp [reference, FeatureTable.size]⟩
  obtain ⟨h, hagain, -, -⟩ := intersect_restricted hbatch hreference aligner
  refine ⟨hbatch, hreference, h.keys.trans (by decide), h.columns, ?_, ?_, hagain⟩
  · exact (h.dropped d).mpr (by decide)
  · exact (h.missing c).mpr (by decide)

/-! ## Trimming one side -/

/-- A table without its surplus over another. -/
def trim (a : Aligner) (side : Side) (own other : FeatureTable) : Alignment :=
  ⟨side, own.drop (a.surplus own other), a.surplus own other, a.surplus other own⟩

/-- The side with a surplus is trimmed, and the reference if the batch has none. The empty list of
missing keys in that case is the surplus of the batch. -/
theorem removeSurplus_eq : a.removeSurplus batch reference =
    if a.surplus batch reference = [] then a.trim .reference reference batch
    else a.trim .batch batch reference := by
  by_cases h : a.surplus batch reference = [] <;> simp [removeSurplus, trim, h]

/-- What is left of a table that lost what another lacks. -/
structure Trimmed (scope : Option Group) (own other : FeatureTable) (out : Alignment) : Prop where
  samples : out.table.samples = own.samples
  columns : out.table.columns = own.columns.filter fun c => !out.dropped.contains c.key
  dropped : ∀ key, key ∈ out.dropped ↔
    inScope scope key = true ∧ key ∈ own.keys ∧ key ∉ other.keys
  missing : ∀ key, key ∈ out.missing ↔
    inScope scope key = true ∧ key ∈ other.keys ∧ key ∉ out.table.keys
  increasing : out.dropped.Pairwise Text.Before ∧ out.missing.Pairwise Text.Before

theorem mem_keys_trim {side : Side} : key ∈ (a.trim side t u).table.keys ↔
    key ∈ t.keys ∧ (inScope a.scope key = true → key ∈ u.keys) := by
  rw [trim, FeatureTable.drop_keys, List.mem_filter]
  simp only [Bool.not_eq_true', ← Bool.not_eq_true, List.contains_iff_mem, mem_surplus]
  tauto

theorem mem_keysIn_trim {side : Side} : key ∈ (a.trim side t u).table.keysIn a.scope ↔
    key ∈ t.keysIn a.scope ∧ key ∈ u.keysIn a.scope :=
  mem_keysIn_of_mem_keys mem_keys_trim

theorem trim_trimmed (a : Aligner) (side : Side) (t u : FeatureTable) :
    Trimmed a.scope t u (a.trim side t u) where
  samples := FeatureTable.drop_samples _
  columns := FeatureTable.drop_columns _
  dropped _ := mem_surplus
  missing key := by
    rw [mem_keys_trim]
    change key ∈ a.surplus u t ↔ _
    rw [mem_surplus]
    tauto
  increasing := ⟨surplus_increasing a t u, surplus_increasing a u t⟩

/-! ## The policies -/

/-- Both policies keep the keys in scope that both tables have. Trimming takes them from the batch
exactly if the batch has a surplus, and takes away nothing else. -/
theorem policies_agree (scope : Option Group) (batch reference : FeatureTable) :
    let trimmed := (Aligner.mk .preferBatch scope).align batch reference
    let restricted := (Aligner.mk .intersect scope).align batch reference
    (∀ key, key ∈ trimmed.table.keysIn scope ↔
      key ∈ batch.keysIn scope ∧ key ∈ reference.keysIn scope) ∧
    (∀ key, key ∈ restricted.table.keysIn scope ↔
      key ∈ batch.keysIn scope ∧ key ∈ reference.keysIn scope) ∧
    (trimmed.side = .batch ↔ ∃ key ∈ batch.keysIn scope, key ∉ reference.keysIn scope) ∧
    Trimmed scope (pick batch reference trimmed.side) (pick reference batch trimmed.side)
      trimmed := by
  intro trimmed restricted
  let a : Aligner := ⟨.preferBatch, scope⟩
  have hsurplus : a.surplus batch reference = [] ↔
      ¬ ∃ key ∈ batch.keysIn scope, key ∉ reference.keysIn scope := by
    rw [surplus_eq_nil_iff]
    simp only [not_exists, not_and, not_not, a]
  have htrimmed : trimmed = a.removeSurplus batch reference := rfl
  rw [removeSurplus_eq] at htrimmed
  split at htrimmed
  · rename_i hnone
    rw [htrimmed]
    refine ⟨fun key => mem_keysIn_trim.trans and_comm, fun key => mem_keysIn_intersect, ?_,
      a.trim_trimmed .reference reference batch⟩
    exact iff_of_false nofun (hsurplus.mp hnone)
  · rename_i hsome
    rw [htrimmed]
    refine ⟨fun key => mem_keysIn_trim, fun key => mem_keysIn_intersect, ?_,
      a.trim_trimmed .batch batch reference⟩
    exact iff_of_true rfl (not_not.mp (mt hsurplus.mpr hsome))

end Schema.Aligner

end ScriptFeatures
