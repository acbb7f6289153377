import ScriptFeatures.Proofs.Binary64.Natural
import ScriptFeatures.Proofs.Pipeline.BundleFile
import ScriptFeatures.Proofs.Syntactic.LimitOrder
import ScriptFeatures.Proofs.Syntactic.Rows
import ScriptFeatures.Proofs.Table.Reached
import ScriptFeatures.Proofs.Tree.Branch

/-! Extraction of the syntactic columns, from the rows of a table to its report. A column is
described by the nodes of the trees (`nodesOf`), not by the counts that go into it: modulo
`2 ^ 32`, and exactly where the trees are smaller (`nodesOf_mod`). `Extended` collects what there is
to say of the table and of the report, for any taxonomy without duplicates (`append_extended`). The
taxonomy of a batch leaves out no kind of its trees, so each row of its columns adds up to the size
of the tree, in binary64 too (`Extended.sum_row`). -/

namespace ScriptFeatures.Syntactic

open Table (Column FeatureTable TableError)
open ScriptFeatures.Tree (NodeKind SyntaxTree)

/-! ## Counts of a script -/

theorem countsOf_eq_ok_iff {limits : Limits} {text : String} {counts : NodeCounts} :
    countsOf limits text = .ok counts ↔
      ∃ tree, parse limits text = .ok tree ∧ tree.counts = counts :=
  Outcome.map_eq_ok_iff

theorem countsOf_eq_error_iff {limits : Limits} {text : String} {e : ParseError} :
    countsOf limits text = .error e ↔ parse limits text = .error e := by
  rw [countsOf]
  cases parse limits text <;> simp [Except.map]

/-- No kind is counted twice. -/
theorem countsOf_nodup {limits : Limits} {text : String} {counts : NodeCounts}
    (h : countsOf limits text = .ok counts) : (counts.map Prod.fst).Nodup := by
  obtain ⟨tree, -, rfl⟩ := countsOf_eq_ok_iff.mp h
  have hall : NodeKind.all.Nodup := by decide
  exact hall.sublist tree.counts_sublist

theorem built_of_parse {limits : Limits} {text : String} {tree : SyntaxTree}
    (h : parse limits text = .ok tree) : tree.Built := by
  obtain ⟨-, script, -, -, rfl⟩ := parse_eq_ok_iff.mp h
  exact SyntaxTree.built_grow .program script.growths

/-- The number of nodes of a kind in the tree of a script, and 0 if it has none. -/
def nodesOf (limits : Limits) (kind : NodeKind) (text : String) : Nat :=
  match parse limits text with
  | .ok tree => tree.nodes.toList.countP fun node => node.kind = kind
  | .error _ => 0

theorem nodesOf_eq_count {limits : Limits} {text : String} {tree : SyntaxTree}
    (h : parse limits text = .ok tree) (kind : NodeKind) :
    nodesOf limits kind text = tree.kinds.count kind := by
  rw [nodesOf, h, (built_of_parse h).count_kinds]

/-- A tree of fewer than `2 ^ 32` nodes is counted exactly. -/
theorem nodesOf_mod {limits : Limits} {text : String} {tree : SyntaxTree}
    (h : parse limits text = .ok tree) (hsize : tree.size < UInt32.size) (kind : NodeKind) :
    nodesOf limits kind text % UInt32.size = nodesOf limits kind text := by
  rw [← (built_of_parse h).length_kinds] at hsize
  rw [nodesOf_eq_count h, SyntaxTree.count_mod hsize]

theorem nodesOf_mod_of_all {limits : Limits} {text : String}
    (h : ∀ tree, parse limits text = .ok tree → tree.size < UInt32.size) (kind : NodeKind) :
    nodesOf limits kind text % UInt32.size = nodesOf limits kind text := by
  cases hparse : parse limits text with
  | error e =>
    rw [nodesOf, hparse]
    rfl
  | ok tree => exact nodesOf_mod hparse (h tree hparse) kind

theorem valueOf_countsOf (limits : Limits) (kind : NodeKind) (text : String) :
    valueOf kind (countsOf limits text) = (nodesOf limits kind text % UInt32.size).toFloat := by
  cases h : parse limits text with
  | error e =>
    rw [nodesOf, countsOf, h]
    rfl
  | ok tree =>
    rw [nodesOf_eq_count h, countsOf, h, Except.map, valueOf, countIn, tree.lookup_counts]

theorem kindsOf_nodup (results : List (Except ParseError NodeCounts)) :
    (kindsOf results).Nodup := by
  have hall : NodeKind.all.Nodup := by decide
  exact hall.filter _

/-! ## The report -/

section Report

variable (results : List (Except ParseError NodeCounts))

theorem mem_failures (row : Nat) (e : ParseError) :
    (row, e) ∈ results.zipIdx.filterMap failureOf ↔ results[row]? = some (.error e) := by
  rw [List.mem_filterMap]
  constructor
  · rintro ⟨⟨result, i⟩, hmem, hfailure⟩
    cases result with
    | ok counts => exact nomatch hfailure
    | error e' =>
      cases hfailure
      exact List.mem_zipIdx_iff_getElem?.mp hmem
  · intro h
    exact ⟨(.error e, row), List.mem_zipIdx_iff_getElem?.mpr h, rfl⟩

theorem failures_increasing :
    ((results.zipIdx.filterMap failureOf).map Prod.fst).Pairwise (· < ·) := by
  have hrow {entry : Except ParseError NodeCounts × Nat} {failure : Nat × ParseError}
      (h : failureOf entry = some failure) : failure.1 = entry.2 := by
    obtain ⟨result, row⟩ := entry
    cases result with
    | ok counts => exact nomatch h
    | error e =>
      cases h
      rfl
  have hindices : (results.zipIdx.map Prod.snd).Pairwise (· < ·) := by
    rw [List.zipIdx_map_snd]
    exact List.pairwise_lt_range'
  rw [List.pairwise_map] at hindices ⊢
  refine hindices.filterMap _ fun x y hlt a ha b hb => ?_
  rw [hrow ha, hrow hb]
  exact hlt

theorem parsed_add_failures (first : Nat) :
    results.countP hasTree + ((results.zipIdx first).filterMap failureOf).length =
      results.length := by
  induction results generalizing first with
  | nil => rfl
  | cons result rest ih =>
    have hrest := ih (first + 1)
    cases result with
    | ok counts =>
      rw [List.countP_cons_of_pos rfl, List.zipIdx_cons, List.filterMap_cons_none rfl,
        List.length_cons]
      omega
    | error e =>
      have hfailure : failureOf (.error e, first) = some (first, e) := rfl
      rw [List.countP_cons_of_neg Bool.false_ne_true, List.zipIdx_cons,
        List.filterMap_cons_some hfailure, List.length_cons, List.length_cons]
      omega

end Report

/-! ## Tables -/

/-- A kind occurs in the tree of a script of the table. -/
def OccursIn (limits : Limits) (t : FeatureTable) (kind : NodeKind) : Prop :=
  ∃ text ∈ t.texts, ∃ tree, parse limits text = .ok tree ∧ ∃ node ∈ tree.nodes, node.kind = kind

theorem mem_counts_iff {tree : SyntaxTree} (h : tree.Built) {kind : NodeKind} :
    kind ∈ tree.counts.map Prod.fst ↔ ∃ node ∈ tree.nodes, node.kind = kind :=
  SyntaxTree.mem_map_fst_counts.trans h.mem_kinds

theorem occurs_countsOf_iff {limits : Limits} {t : FeatureTable} {kind : NodeKind} :
    Occurs (t.texts.map (countsOf limits)) kind ↔ OccursIn limits t kind := by
  constructor
  · rintro ⟨counts, hcounts, hkind⟩
    obtain ⟨text, htext, hok⟩ := List.mem_map.mp hcounts
    obtain ⟨tree, hparse, rfl⟩ := countsOf_eq_ok_iff.mp hok
    exact ⟨text, htext, tree, hparse, (mem_counts_iff (built_of_parse hparse)).mp hkind⟩
  · rintro ⟨text, htext, tree, hparse, hnode⟩
    have hok := countsOf_eq_ok_iff.mpr ⟨tree, hparse, rfl⟩
    exact ⟨tree.counts, List.mem_map.mpr ⟨text, htext, hok⟩,
      (mem_counts_iff (built_of_parse hparse)).mpr hnode⟩

/-- The table `u` is `t` with a column for each kind of a taxonomy, and the report tells of the rows
what there is to tell. The numbers of nodes stand in the columns modulo `2 ^ 32`, and as they are if
no tree has more. -/
structure Extended (limits : Limits) (taxonomy : List NodeKind) (t u : FeatureTable)
    (report : Report) : Prop where
  samples : u.samples = t.samples
  columns : u.columns = t.columns ++ taxonomy.map fun kind =>
    ⟨⟨.syntactic, kind.label⟩,
      t.texts.map fun text => (nodesOf limits kind text % UInt32.size).toFloat⟩
  exact : (∀ text ∈ t.texts, ∀ tree, parse limits text = .ok tree → tree.size < UInt32.size) →
    u.columns = t.columns ++ taxonomy.map fun kind =>
      ⟨⟨.syntactic, kind.label⟩, t.texts.map fun text => (nodesOf limits kind text).toFloat⟩
  rows : report.rows = t.size
  parsed : report.rows = report.parsed + report.failures.length
  failures : ∀ row e, (row, e) ∈ report.failures ↔
    ∃ text, t.texts[row]? = some text ∧ parse limits text = .error e
  increasing : (report.failures.map Prod.fst).Pairwise (· < ·)
  kinds : report.taxonomy = taxonomy
  unseen : ∀ kind, kind ∈ report.unseen ↔ kind ∉ taxonomy ∧ OccursIn limits t kind
  unseen_nodup : report.unseen.Nodup

theorem label_injective : Function.Injective NodeKind.label := by
  intro k l h
  rw [← Option.some_inj, ← k.ofLabel?_label, h, l.ofLabel?_label]

theorem append_extended (limits : Limits) {taxonomy : List NodeKind} {t : FeatureTable}
    (hfree : ∀ c ∈ t.columns, c.key.group ≠ .syntactic) (h : taxonomy.Nodup) :
    ∃ u report, append t (t.texts.map (countsOf limits)) taxonomy = .ok (u, report) ∧
      Extended limits taxonomy t u report := by
  have hkeys : ((columns (t.texts.map (countsOf limits)) taxonomy).map Column.key).Nodup := by
    rw [columns, List.map_map]
    refine h.map fun k l hkl => label_injective ?_
    exact congrArg Table.Key.name hkl
  have hnew : ∀ c ∈ columns (t.texts.map (countsOf limits)) taxonomy, c.key ∉ t.keys := by
    intro c hc hmem
    obtain ⟨kind, -, rfl⟩ := List.mem_map.mp hc
    obtain ⟨d, hd, hkey⟩ := List.mem_map.mp hmem
    exact hfree d hd (congrArg Table.Key.group hkey)
  have hfull : ∀ c ∈ columns (t.texts.map (countsOf limits)) taxonomy,
      c.values.length = t.size := by
    intro c hc
    obtain ⟨kind, -, rfl⟩ := List.mem_map.mp hc
    simp [FeatureTable.texts, FeatureTable.size]
  obtain ⟨u, hu, hsamples, hcolumns⟩ := FeatureTable.exists_pushAll hnew hkeys hfull
  have hvalues : u.columns = t.columns ++ taxonomy.map fun kind =>
      ⟨⟨.syntactic, kind.label⟩,
        t.texts.map fun text => (nodesOf limits kind text % UInt32.size).toFloat⟩ := by
    rw [hcolumns, columns]
    congr 1
    refine List.map_congr_left fun kind _ => ?_
    rw [List.map_map]
    refine congrArg (Column.mk _) (List.map_congr_left fun text _ => ?_)
    exact valueOf_countsOf limits kind text
  refine ⟨u, reportOf (t.texts.map (countsOf limits)) taxonomy, by rw [append, hu]; rfl,
    hsamples, hvalues, fun hsizes => ?_, ?_, ?_, ?_, ?_, rfl, ?_, ?_⟩
  · rw [hvalues]
    congr 1
    refine List.map_congr_left fun kind _ => ?_
    refine congrArg (Column.mk _) (List.map_congr_left fun text htext => ?_)
    rw [nodesOf_mod_of_all (hsizes text htext)]
  · simp [reportOf, FeatureTable.texts, FeatureTable.size]
  · exact (parsed_add_failures _ 0).symm
  · intro row e
    rw [reportOf, mem_failures, List.getElem?_map, Option.map_eq_some_iff]
    exact exists_congr fun text => and_congr_right fun _ => countsOf_eq_error_iff
  · exact failures_increasing _
  · intro kind
    rw [reportOf, List.mem_filter, mem_kindsOf, occurs_countsOf_iff, and_comm]
    simp
  · exact (kindsOf_nodup _).filter _

/-! ## The kinds of a batch -/

theorem kindsOf_increasing (results : List (Except ParseError NodeCounts)) :
    (kindsOf results).Pairwise fun k l => k.rank < l.rank := by
  have hall : NodeKind.all.Pairwise fun k l => k.rank < l.rank := by decide +kernel
  exact hall.filter _

theorem sum_filter (p : NodeKind → Bool) (f : NodeKind → Nat) {kinds : List NodeKind}
    (h : ∀ k ∈ kinds, p k = false → f k = 0) :
    ((kinds.filter p).map f).sum = (kinds.map f).sum := by
  induction kinds with
  | nil => rfl
  | cons k rest ih =>
    rw [List.forall_mem_cons] at h
    cases hk : p k with
    | true => rw [List.filter_cons_of_pos hk, List.map_cons, List.map_cons, List.sum_cons,
        List.sum_cons, ih h.2]
    | false => rw [List.filter_cons_of_neg (by simp [hk]), List.map_cons, List.sum_cons,
        h.1 hk, Nat.zero_add, ih h.2]

/-- The kinds of a batch leave out no node of its trees. -/
theorem sum_nodesOf {limits : Limits} {t : FeatureTable} {text : String} (htext : text ∈ t.texts)
    {tree : SyntaxTree} (h : parse limits text = .ok tree) :
    ((kindsOf (t.texts.map (countsOf limits))).map (nodesOf limits · text)).sum = tree.size := by
  rw [funext (nodesOf_eq_count h), kindsOf, sum_filter, NodeKind.sum_count_all,
    (built_of_parse h).length_kinds]
  intro kind _ hkind
  by_contra hne
  have hcounts := List.mem_map.mpr ⟨text, htext, countsOf_eq_ok_iff.mpr ⟨tree, h, rfl⟩⟩
  have hmem : kind ∈ tree.counts.map Prod.fst :=
    SyntaxTree.mem_map_fst_counts.mpr (List.count_pos_iff.mp (Nat.pos_of_ne_zero hne))
  have hkinds := mem_kindsOf.mpr ⟨tree.counts, hcounts, hmem⟩
  rw [kindsOf, List.mem_filter, hkind] at hkinds
  exact Bool.false_ne_true hkinds.2

theorem materialize_countsOf (limits : Limits) (t : FeatureTable) {taxonomy : List NodeKind}
    (h : taxonomy.Nodup) :
    materialize t (t.texts.map (countsOf limits)) taxonomy =
      append t (t.texts.map (countsOf limits)) taxonomy := by
  refine materialize_eq t h fun counts hmem => ?_
  obtain ⟨text, -, hok⟩ := List.mem_map.mp hmem
  exact countsOf_nodup hok

/-- The new values of a row add up to the number of nodes of its tree, in binary64 as well. -/
theorem Extended.sum_row {limits : Limits} {t u : FeatureTable} {report : Report}
    (h : Extended limits (kindsOf (t.texts.map (countsOf limits))) t u report) {row : Nat}
    {text : String} (hrow : t.texts[row]? = some text) {tree : SyntaxTree}
    (hparse : parse limits text = .ok tree) (hsize : tree.size < UInt32.size) :
    ((u.columns.drop t.columns.length).map (·.values.getD row 0)).foldl (· + ·) 0 =
      tree.size.toFloat := by
  have hsum := sum_nodesOf (List.mem_of_getElem? hrow) hparse
  have hexact : UInt32.size ≤ 2 ^ 53 := by decide
  have hfold := Binary64.foldl_toFloat
    ((kindsOf (t.texts.map (countsOf limits))).map (nodesOf limits · text)) 0 (by omega)
  rw [hsum, Nat.zero_add, List.map_map] at hfold
  rw [h.columns, List.drop_left, List.map_map]
  refine Eq.trans (congrArg (List.foldl (· + ·) 0) (List.map_congr_left fun kind _ => ?_)) hfold
  have hmod := nodesOf_mod hparse hsize kind
  simp only [Function.comp_apply, List.getD_eq_getElem?_getD, List.getElem?_map, hrow,
    Option.map_some, Option.getD_some, hmod]

/-- Syntactic extraction and its report are exact. -/
theorem extract_extended (limits : Limits) (t : FeatureTable)
    (hfree : ∀ c ∈ t.columns, c.key.group ≠ .syntactic) :
    (∀ taxonomy : List NodeKind, taxonomy.Nodup →
      ∃ u report, applyTaxonomy limits taxonomy t = .ok (u, report) ∧
        materialize t (t.texts.map (countsOf limits)) taxonomy = .ok (u, report) ∧
        Extended limits taxonomy t u report) ∧
    ∃ u report, extract limits t = .ok (u, report) ∧
      materialize t (t.texts.map (countsOf limits)) report.taxonomy = .ok (u, report) ∧
      Extended limits report.taxonomy t u report ∧
      (∀ kind, kind ∈ report.taxonomy ↔ OccursIn limits t kind) ∧
      report.taxonomy.Pairwise (fun k l => k.rank < l.rank) ∧
      report.unseen = [] ∧
      ∀ row text tree, t.texts[row]? = some text → parse limits text = .ok tree →
        (report.taxonomy.map (nodesOf limits · text)).sum = tree.size ∧
        (tree.size < UInt32.size →
          ((u.columns.drop t.columns.length).map (·.values.getD row 0)).foldl (· + ·) 0 =
            tree.size.toFloat) := by
  constructor
  · intro taxonomy h
    obtain ⟨u, report, hok, hextended⟩ := append_extended limits hfree h
    exact ⟨u, report, hok, (materialize_countsOf limits t h).trans hok, hextended⟩
  · have h := kindsOf_nodup (t.texts.map (countsOf limits))
    obtain ⟨u, report, hok, hextended⟩ := append_extended limits hfree h
    have hoccurs (kind : NodeKind) : kind ∈ kindsOf (t.texts.map (countsOf limits)) ↔
        OccursIn limits t kind :=
      mem_kindsOf.trans occurs_countsOf_iff
    refine ⟨u, report, hok, ?_⟩
    rw [hextended.kinds]
    refine ⟨(materialize_countsOf limits t h).trans hok, hextended, hoccurs,
      kindsOf_increasing _, ?_, fun row text tree hrow hparse =>
        ⟨?_, hextended.sum_row hrow hparse⟩⟩
    · refine List.eq_nil_iff_forall_not_mem.mpr fun kind hkind => ?_
      obtain ⟨hnot, hin⟩ := (hextended.unseen kind).mp hkind
      exact hnot ((hoccurs kind).mpr hin)
    · exact sum_nodesOf (List.mem_of_getElem? hrow) hparse

/-- A script of six nodes before a text that is no script. -/
theorem extract_extended_mixed :
    let limits : Limits := ⟨100, 10, 10, 1⟩
    let t : FeatureTable := .ofSamples [.ofScript "f(1,2)", .ofScript "if (("]
    (∃ u report, applyTaxonomy limits [.tryStatement, .literal] t = .ok (u, report) ∧
      u.columns =
        [⟨⟨.syntactic, "TryStatement"⟩, [Nat.toFloat 0, Nat.toFloat 0]⟩,
          ⟨⟨.syntactic, "Literal"⟩, [Nat.toFloat 2, Nat.toFloat 0]⟩] ∧
      (1, .invalid (.unexpected .eof)) ∈ report.failures ∧ .callExpression ∈ report.unseen) ∧
    ∃ u report, extract limits t = .ok (u, report) ∧ report.unseen = [] ∧
      (u.columns.map (·.values.getD 0 0)).foldl (· + ·) 0 = Nat.toFloat 6 := by
  intro limits t
  have hnodes (kind : NodeKind) (ns : List Nat)
      (h : t.texts.map (nodesOf limits kind) = ns) :
      t.texts.map (fun text => (nodesOf limits kind text).toFloat) = ns.map Nat.toFloat := by
    rw [← h, List.map_map]
    rfl
  have htest : (parse limits "f(1,2)").toOption.any (fun tree =>
      decide (tree.size = 6) && tree.nodes.any (·.kind = .callExpression)) = true := by
    decide +kernel
  obtain ⟨tree, hparse, htree⟩ := exists_of_any htest
  obtain ⟨hsize, hcall⟩ := Bool.and_eq_true_iff.mp htree
  have hsize := of_decide_eq_true hsize
  have hsizes : ∀ text ∈ t.texts, ∀ tree, parse limits text = .ok tree →
      tree.size < UInt32.size := by
    intro text htext tree hparse
    have hall : (t.texts.all fun text => (parse limits text).toOption.all fun tree =>
        decide (tree.size < UInt32.size)) = true := by
      decide +kernel
    have hsmall := List.all_eq_true.mp hall text htext
    rw [hparse] at hsmall
    exact of_decide_eq_true hsmall
  obtain ⟨happly, u, report, hok, -, -, -, -, hunseen, hsum⟩ :=
    extract_extended limits t nofun
  constructor
  · obtain ⟨u, report, hok, -, h⟩ := happly [.tryStatement, .literal] (by decide)
    refine ⟨u, report, hok, ?_, ?_, ?_⟩
    · rw [h.exact hsizes, List.map_cons, List.map_cons,
        hnodes .tryStatement [0, 0] (by decide +kernel),
        hnodes .literal [2, 0] (by decide +kernel)]
      rfl
    · exact (h.failures 1 _).mpr ⟨"if ((", rfl, by decide +kernel⟩
    · refine (h.unseen _).mpr ⟨by decide, "f(1,2)", by decide, tree, hparse, ?_⟩
      obtain ⟨node, hmem, hkind⟩ := Array.any_eq_true'.mp hcall
      exact ⟨node, hmem, of_decide_eq_true hkind⟩
  · refine ⟨u, report, hok, hunseen, ?_⟩
    rw [← hsize]
    exact (hsum 0 _ tree rfl hparse).2 (by rw [hsize]; decide)

end ScriptFeatures.Syntactic
