import ScriptFeatures.Proofs.Json.Document
import ScriptFeatures.Proofs.Json.Skip
import ScriptFeatures.Proofs.Table.Row
import ScriptFeatures.Proofs.Table.SampleFile
import ScriptFeatures.Run.CommandLine

/-! What a run writes for the rows of a table is a file of samples. A row is one line, since a value
on a line has no line break; the members of the sample stand in order among the columns, whose names
no field has, so that they are run over. -/

namespace ScriptFeatures

open Json (Makes Reads Scalar Value)

/-! ## Lines of values -/

namespace Run

theorem toList_join_emit (v : Value) (vs : List Value) :
    (String.join ((v :: vs).map emit)).toList =
      v.compact.toList ++ '\n' :: (String.join (vs.map emit)).toList := by
  simp [emit]

theorem unbroken_compact (v : Value) : '\n' ∉ v.compact.toList :=
  fun h => absurd (v.visible_compact _ h) (by decide)

/-- Values that are written one after the other stand on one line each. -/
theorem lines_emit (vs : List Value) :
    Text.lines (Text.encode (String.join (vs.map emit))) =
      vs.map fun v => Text.encode v.compact := by
  rw [← String.ofList_toList (s := String.join _)]
  induction vs with
  | nil => exact Text.lines_encode_nil
  | cons v vs ih =>
    have hreturn : v.compact.toList.getLast? ≠ some '\r' := fun h =>
      absurd (v.visible_compact _ (List.mem_of_getLast? h)) (by decide)
    rw [toList_join_emit, Text.lines_encode (unbroken_compact v),
      Text.withoutReturn_of_ne hreturn, String.ofList_toList, ih, List.map_cons]

theorem count_emit (vs : List Value) :
    (Text.encode (String.join (vs.map emit))).count 10 = vs.length := by
  rw [← String.ofList_toList (s := String.join _), Text.encode, Text.toUTF8_ofList,
    Text.count_lineFeed]
  induction vs with
  | nil => rfl
  | cons v vs ih =>
    have hline : v.compact.toList.count '\n' = 0 :=
      List.count_eq_zero_of_not_mem (unbroken_compact v)
    rw [toList_join_emit, List.count_append, hline, List.count_cons_self, ih, List.length_cons,
      Nat.zero_add]

end Run

/-! ## Rows -/

namespace Table

theorem Sample.scalar_members (s : Sample) : ∀ m ∈ s.members, Scalar m.2 m.2 := by
  have hscript : Scalar (s.script.elim .null .text) (s.script.elim .null .text) := by
    cases s.script with
    | none => exact .null
    | some text => exact .text text
  intro m hm
  simp only [members, List.cons_append, List.mem_cons, List.mem_append, List.mem_map] at hm
  obtain rfl | (⟨name, -, rfl⟩ | ⟨b, -, rfl⟩) | ⟨b, -, rfl⟩ := hm
  · exact hscript
  · exact .text name
  · exact .boolean b
  · exact .boolean b

/-- Whether a member of an object gives a field of a sample. -/
def Sample.isField (m : String × Value) : Bool :=
  (fields.find? (·.name == m.1)).isSome

theorem Sample.isField_iff (m : String × Value) : isField m = true ↔ m.1 ∈ names := by
  simp [isField, names]

theorem Sample.isField_text (k : Key) (v : Value) : isField (k.text, v) = false :=
  Bool.eq_false_iff.mpr (mt (isField_iff _).mp (text_notMem_names k))

namespace FeatureTable

variable {t : FeatureTable}

/-- The numbers in the columns of a table are read back from their texts. -/
def ReadsBack (t : FeatureTable) : Prop :=
  ∀ c ∈ t.columns, ∀ x ∈ c.values, x.isFinite = true → Json.Number.ReadsBack x

/-- The members of the object of a row, which is given by its sample and its number. -/
def rowObject (t : FeatureTable) (entry : Sample × Nat) : List (String × Value) :=
  Value.collect (t.rowMembers entry.2 entry.1)

/-- The objects of all rows. -/
def rows (t : FeatureTable) : List Value :=
  t.samples.zipIdx.map fun entry => .object (t.rowObject entry)

theorem length_rows (t : FeatureTable) : t.rows.length = t.size := by
  simp [rows, size]

theorem getElem?_rows (t : FeatureTable) (row : Nat) : t.rows[row]? = t.row? row := by
  rw [rows, List.getElem?_map, List.getElem?_zipIdx, Option.map_map, Nat.zero_add, row?]
  rfl

theorem lt_size_of_mem_zipIdx {entry : Sample × Nat} (h : entry ∈ t.samples.zipIdx) :
    entry.2 < t.size := by
  obtain ⟨-, hlt, -⟩ := List.mem_zipIdx h
  rwa [Nat.zero_add] at hlt

/-- The members that give fields of a sample are those of the sample of the row, in their order. -/
theorem Sound.filter_rowObject (h : t.Sound) (entry : Sample × Nat) :
    (t.rowObject entry).filter Sample.isField = entry.1.members := by
  have hmembers : entry.1.members.filter Sample.isField = entry.1.members :=
    List.filter_eq_self.mpr fun m hm => (Sample.isField_iff m).mpr (entry.1.name_mem hm)
  have hcolumns : t.columns.filter
      (Sample.isField ∘ fun c => (c.key.text, .real (c.values.getD entry.2 0))) = [] :=
    List.filter_eq_nil_iff.mpr fun c _ => Bool.eq_false_iff.mp (Sample.isField_text c.key _)
  have hperm := (h.collect_rowMembers entry.2 entry.1).filter Sample.isField
  rw [rowMembers, List.filter_append, List.filter_map, hmembers, hcolumns, List.map_nil,
    List.append_nil] at hperm
  have hincreasing : Value.Increasing ((t.rowObject entry).filter Sample.isField) :=
    (Value.increasing_collect _).filter _
  exact hincreasing.eq_of_perm entry.1.increasing_members hperm

section

variable (h : t.Sound) (hback : t.ReadsBack) {entry : Sample × Nat}
  (hentry : entry ∈ t.samples.zipIdx)
include h hback hentry

theorem Sound.scalar_rowObject : ∀ m ∈ t.rowObject entry, Scalar m.2 m.2 := by
  rintro ⟨name, v⟩ hm
  rw [rowObject, (h.collect_rowMembers _ _).mem_iff,
    h.mem_rowMembers_iff (lt_size_of_mem_zipIdx hentry)] at hm
  obtain hm | ⟨c, hc, x, hx, -, rfl⟩ := hm
  · exact entry.1.scalar_members _ hm
  · exact .real (hback c hc x (List.mem_of_getElem? hx))

/-- The object of a row is taken back as its sample. -/
theorem Sound.reads_rowObject : Reads Sample.read (.object (t.rowObject entry)) entry.1 := by
  have hmakes : Makes Sample.fields [] Sample.blank
      ((t.rowObject entry).filter Sample.isField) entry.1 := by
    rw [h.filter_rowObject]
    exact entry.1.makes
  refine .record_of_makes (hmakes.of_filter fun m hm _ => ?_) rfl
  exact .skip (h.scalar_rowObject hback hentry m hm)

end

theorem Sound.parse_rows (h : t.Sound) (hback : t.ReadsBack) {v : Value} (hv : v ∈ t.rows) :
    Value.parse v.compact = .ok v := by
  obtain ⟨entry, hentry, rfl⟩ := List.mem_map.mp hv
  exact Value.parse_object (h.scalar_rowObject hback hentry)

/-- The objects of the rows, each on a line of its own, are read as the samples. -/
theorem Sound.readLines_rows (h : t.Sound) (hback : t.ReadsBack) :
    readLines [] 1 (t.rows.map fun v => Text.encode v.compact) = .ok t.samples := by
  have hreads := readLines_objects (fun _ hentry => h.reads_rowObject hback hentry) [] 1
  rw [rows, List.map_map]
  refine hreads.trans (congrArg Except.ok ?_)
  exact List.zipIdx_map_fst 0 t.samples

end FeatureTable

end Table

/-! ## The output -/

namespace Run

open Table (FeatureTable)

theorem filterMap_range_getElem? (l : List α) : (List.range l.length).filterMap (l[·]?) = l := by
  induction l with
  | nil => rfl
  | cons a l ih =>
    rw [List.length_cons, List.range_succ_eq_map, List.filterMap_cons, List.filterMap_map]
    exact congrArg (a :: ·) ih

theorem rowLines_eq (t : FeatureTable) : rowLines t = t.rows.map emit := by
  have hrows : (List.range t.size).filterMap t.row? = t.rows := by
    rw [← t.length_rows, ← funext t.getElem?_rows, filterMap_range_getElem?]
  rw [← hrows, List.map_filterMap]
  rfl

/-- The rows of a sound table, written one after the other, are a file of samples: it has a line for
each row, which is the object of this row, and its samples are those of the table in order. Numbers
are taken to be read back from their texts. -/
theorem readSamples_rowLines {t : FeatureTable} (h : t.Sound) (hback : t.ReadsBack) :
    let output := Text.encode (String.join (rowLines t))
    output.count 10 = t.size ∧ (Text.lines output).length = t.size ∧
    (∀ row < t.size, ∃ line v, (Text.lines output)[row]? = some (Text.encode line) ∧
      Value.parse line = .ok v ∧ t.row? row = some v) ∧
    Table.readSamples output = .ok t.samples := by
  intro output
  have houtput : output = Text.encode (String.join (t.rows.map emit)) := by
    rw [← rowLines_eq]
  have hlines : Text.lines output = t.rows.map fun v => Text.encode v.compact := by
    rw [houtput, lines_emit]
  refine ⟨?_, ?_, fun row hrow => ?_, ?_⟩
  · rw [houtput, count_emit, t.length_rows]
  · rw [hlines, List.length_map, t.length_rows]
  · obtain ⟨v, hv⟩ : ∃ v, t.rows[row]? = some v :=
      ⟨_, List.getElem?_eq_getElem (by rwa [t.length_rows])⟩
    refine ⟨v.compact, v, ?_, h.parse_rows hback (List.mem_of_getElem? hv), ?_⟩
    · rw [hlines, List.getElem?_map, hv]
      rfl
    · rw [← t.getElem?_rows, hv]
  · rw [Table.readSamples, hlines, h.readLines_rows hback]

theorem crossed_readsBack : FeatureTable.crossed.ReadsBack := by
  intro c hc x hx hfinite
  simp only [FeatureTable.crossed, List.mem_cons, List.not_mem_nil, or_false] at hc
  obtain rfl | rfl | rfl := hc <;> cases List.mem_singleton.mp hx
  · exact Json.Number.readsBack_half
  · exact absurd hfinite (by decide +kernel)
  · exact absurd hfinite (by decide +kernel)

theorem readSamples_rowLines_crossed :
    FeatureTable.crossed.Sound ∧ FeatureTable.crossed.ReadsBack ∧
    (Text.encode (String.join (rowLines .crossed))).count 10 = 1 ∧
    Table.readSamples (Text.encode (String.join (rowLines .crossed))) =
      .ok [⟨some "\"\n", none, some true, none⟩] := by
  obtain ⟨hcount, -, -, hread⟩ :=
    readSamples_rowLines FeatureTable.crossed_sound crossed_readsBack
  exact ⟨FeatureTable.crossed_sound, crossed_readsBack, hcount, hread⟩

end Run

end ScriptFeatures
