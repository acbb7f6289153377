import ScriptFeatures.Config.File
import ScriptFeatures.Proofs.Json.Completion
import ScriptFeatures.Proofs.Pipeline.BundleFile

/-! Settings are completed field by field: from what is left of a file of settings, those that are
still in it are read as they were written, and the others have their defaults. A section that is
missing is one of which every setting is missing. -/

namespace ScriptFeatures.Config

open Json (Form Remains Answers Scalar Reads Completes Spaced)

/-! ## Sections -/

namespace LexicalConfig

/-- Settings that a file can hold: the count fits 64 bits, the share is a number that is read back
from its text. -/
structure Representable (c : LexicalConfig) : Prop where
  minimum_lt : c.minimum < UInt64.size
  finite : c.maximum.isFinite = true
  readsBack : Json.Number.ReadsBack c.maximum

/-- The given settings, and defaults for the others. -/
def completed (c : LexicalConfig) (given : String → Bool) : LexicalConfig where
  minimum := if given "min_df" then c.minimum else ({} : LexicalConfig).minimum
  maximum := if given "max_df" then c.maximum else ({} : LexicalConfig).maximum
  sublinear := if given "sublinear_tf" then c.sublinear else ({} : LexicalConfig).sublinear
  lowercase := if given "lowercase" then c.lowercase else ({} : LexicalConfig).lowercase

theorem answers_remains {c : LexicalConfig} (h : c.Representable) {f : Form}
    (hleft : Remains c.toJson f) :
    Answers LexicalConfig.read f.tokens (.ok (c.completed fun name => f.has [name])) := by
  obtain ⟨members, rfl⟩ := hleft.exists_object
  refine @Remains.answers_record _ _ c.completed _ _ hleft
    (.cons (.defaulted (fun _ hleft => hleft.answers_word h.minimum_lt) fun given => ?_)
      (.cons (.defaulted (fun _ hleft => hleft.answers_real h.finite h.readsBack) fun given => ?_)
        (.cons (.defaulted (fun _ hleft => hleft.answers_boolean) fun given => ?_)
          (.cons (.defaulted (fun _ hleft => hleft.answers_boolean) fun given => ?_) .nil))))
    fun given given' hsame => ?_
  case refine_5 =>
    simp only [List.map_cons, List.map_nil, List.forall_mem_cons] at hsame
    simp only [completed, hsame]
  all_goals simp [completed, Json.also]

theorem reads {c : LexicalConfig} (h : c.Representable) : Reads LexicalConfig.read c.toJson c := by
  have hmaximum := Reads.real h.finite h.readsBack.readable
  rw [h.readsBack.reread_eq] at hmaximum
  exact .record
    (.cons rfl rfl ((Reads.natural h.minimum_lt (Nat.le_refl _)).map _)
      (.cons rfl rfl (hmaximum.map _)
        (.cons rfl rfl ((Reads.boolean c.sublinear).map _)
          (.cons rfl rfl ((Reads.boolean c.lowercase).map _) (.nil _)))))
    rfl

end LexicalConfig

namespace SyntacticConfig

/-- Bounds that a file can hold: they fit 64 bits. -/
structure Representable (c : SyntacticConfig) : Prop where
  maxBytes_lt : c.maxBytes < UInt64.size
  maxNesting_lt : c.maxNesting < UInt64.size
  maxExpression_lt : c.maxExpression < UInt64.size
  timeout_lt : c.timeout < UInt64.size
  workers_lt : c.workers < UInt64.size
  maxParsers_lt : c.maxParsers < UInt64.size

/-- The given bounds, and defaults for the others. -/
def completed (c : SyntacticConfig) (given : String → Bool) : SyntacticConfig where
  maxBytes := if given "max_source_bytes" then c.maxBytes else ({} : SyntacticConfig).maxBytes
  maxNesting :=
    if given "max_nesting_depth" then c.maxNesting else ({} : SyntacticConfig).maxNesting
  maxExpression :=
    if given "max_expression_depth" then c.maxExpression else ({} : SyntacticConfig).maxExpression
  timeout := if given "parse_timeout_ms" then c.timeout else ({} : SyntacticConfig).timeout
  workers := if given "workers" then c.workers else ({} : SyntacticConfig).workers
  maxParsers :=
    if given "max_live_parsers" then c.maxParsers else ({} : SyntacticConfig).maxParsers

theorem answers_remains {c : SyntacticConfig} (h : c.Representable) {f : Form}
    (hleft : Remains c.toJson f) :
    Answers SyntacticConfig.read f.tokens (.ok (c.completed fun name => f.has [name])) := by
  obtain ⟨members, rfl⟩ := hleft.exists_object
  refine @Remains.answers_record _ _ c.completed _ _ hleft
    (.cons (.defaulted (fun _ hleft => hleft.answers_word h.maxBytes_lt) fun given => ?_)
      (.cons (.defaulted (fun _ hleft => hleft.answers_word h.maxNesting_lt) fun given => ?_)
        (.cons (.defaulted (fun _ hleft => hleft.answers_word h.maxExpression_lt) fun given => ?_)
          (.cons (.defaulted (fun _ hleft => hleft.answers_word h.timeout_lt) fun given => ?_)
            (.cons (.defaulted (fun _ hleft => hleft.answers_word h.workers_lt) fun given => ?_)
              (.cons (.defaulted (fun _ hleft => hleft.answers_word h.maxParsers_lt)
                fun given => ?_) .nil))))))
    fun given given' hsame => ?_
  case refine_7 =>
    simp only [List.map_cons, List.map_nil, List.forall_mem_cons] at hsame
    simp only [completed, hsame]
  all_goals simp [completed, Json.also]

theorem reads {c : SyntacticConfig} (h : c.Representable) :
    Reads SyntacticConfig.read c.toJson c :=
  have hword {n : Nat} (hn : n < UInt64.size) := Reads.natural hn (Nat.le_refl _)
  .record
    (.cons rfl rfl ((hword h.maxBytes_lt).map _)
      (.cons rfl rfl ((hword h.maxNesting_lt).map _)
        (.cons rfl rfl ((hword h.maxExpression_lt).map _)
          (.cons rfl rfl ((hword h.timeout_lt).map _)
            (.cons rfl rfl ((hword h.workers_lt).map _)
              (.cons rfl rfl ((hword h.maxParsers_lt).map _) (.nil _)))))))
    rfl

end SyntacticConfig

namespace LogConfig

/-- The given settings of the log, and defaults for the others. -/
def completed (c : LogConfig) (given : String → Bool) : LogConfig where
  level := if given "level" then c.level else ({} : LogConfig).level
  json := if given "json" then c.json else ({} : LogConfig).json

theorem answers_remains {c : LogConfig} {f : Form} (hleft : Remains c.toJson f) :
    Answers LogConfig.read f.tokens (.ok (c.completed fun name => f.has [name])) := by
  obtain ⟨members, rfl⟩ := hleft.exists_object
  refine @Remains.answers_record _ _ c.completed _ _ hleft
    (.cons (.defaulted (fun _ hleft => hleft.answers_text) fun given => ?_)
      (.cons (.defaulted (fun _ hleft => hleft.answers_boolean) fun given => ?_) .nil))
    fun given given' hsame => ?_
  case refine_3 =>
    simp only [List.map_cons, List.map_nil, List.forall_mem_cons] at hsame
    simp only [completed, hsame]
  all_goals simp [completed, Json.also]

theorem reads (c : LogConfig) : Reads LogConfig.read c.toJson c :=
  .record
    (.cons rfl rfl ((Reads.text c.level).map _)
      (.cons rfl rfl ((Reads.boolean c.json).map _) (.nil _)))
    rfl

end LogConfig

theorem answers_strategies {set : Pipeline.Strategies} {f : Form} (hleft : Remains set.toJson f) :
    Answers Pipeline.Strategies.read f.tokens (.ok set) := by
  have hlist : Answers (Json.listOf Pipeline.Strategy.read) f.tokens (.ok set.toList) :=
    hleft.answers_listOf fun s _ hleft =>
      hleft.answers_scalar (.text s.label) (Pipeline.Strategy.reads s)
  have hset := hlist.map Pipeline.Strategies.ofList
  change Answers _ _ (.ok (Pipeline.Strategies.ofList set.toList)) at hset
  rwa [Pipeline.Strategies.ofList_toList] at hset

/-! ## All settings -/

namespace PipelineConfig

/-- Settings that a file can hold. -/
structure Representable (c : PipelineConfig) : Prop where
  lexical : c.lexical.Representable
  syntactic : c.syntactic.Representable

/-- The settings at the given paths, and defaults for the others. -/
def completed (c : PipelineConfig) (given : List String → Bool) : PipelineConfig where
  strategies := if given ["strategies"] then c.strategies else ({} : PipelineConfig).strategies
  lexical := c.lexical.completed fun name => given ["lexical", name]
  syntactic := c.syntactic.completed fun name => given ["syntactic", name]
  log := c.log.completed fun name => given ["log", name]

/-- Settings completed by the sections that are given, of which `f` says what is left. A section is
set as a whole, so it is with this record that the members of a file are gone through. -/
def completedBy (c : PipelineConfig) (f : Form) (given : String → Bool) : PipelineConfig where
  strategies := if given "strategies" then c.strategies else ({} : PipelineConfig).strategies
  lexical := if given "lexical" then c.lexical.completed fun name => f.has ["lexical", name] else {}
  syntactic :=
    if given "syntactic" then c.syntactic.completed fun name => f.has ["syntactic", name] else {}
  log := if given "log" then c.log.completed fun name => f.has ["log", name] else {}

/-- A section is read as the one of the whole file. -/
theorem answers_section {read : Json.Read α} {complete : (String → Bool) → α}
    {members : List (Json.Marks × Form)} {title : String} {f : Form}
    (hmember : (Form.object members).member? title = some f)
    (h : Answers read f.tokens (.ok (complete fun name => f.has [name]))) :
    Answers read f.tokens (.ok (complete fun name => (Form.object members).has [title, name])) := by
  simpa only [Form.has_cons_of_member? hmember] using h

/-- Nothing is given in a section that is missing. -/
theorem complete_section (complete : (String → Bool) → α) (f : Form) (title : String) :
    (if f.has [title] then complete fun name => f.has [title, name]
      else complete fun _ => false) = complete fun name => f.has [title, name] := by
  rw [Form.has_singleton]
  cases hmember : f.member? title with
  | none => simp [Form.has_cons_of_none hmember]
  | some g => exact if_pos rfl

theorem completedBy_eq (c : PipelineConfig) (f : Form) :
    (c.completedBy f fun name => f.has [name]) = c.completed f.has := by
  rw [completed, ← complete_section c.lexical.completed, ← complete_section c.syntactic.completed,
    ← complete_section c.log.completed]
  rfl

theorem answers_remains {c : PipelineConfig} (h : c.Representable) {f : Form}
    (hleft : Remains c.toJson f) :
    Answers PipelineConfig.read f.tokens (.ok (c.completed f.has)) := by
  obtain ⟨members, rfl⟩ := hleft.exists_object
  rw [← completedBy_eq]
  refine @Remains.answers_record _ _ (c.completedBy (.object members)) _ _ hleft
    (.cons (.defaulted (fun _ hleft => answers_strategies hleft) fun given => ?_)
      (.cons (.defaulted (fun hmember hleft =>
          answers_section hmember (LexicalConfig.answers_remains h.lexical hleft)) fun given => ?_)
        (.cons (.defaulted (fun hmember hleft =>
            answers_section hmember (SyntacticConfig.answers_remains h.syntactic hleft))
            fun given => ?_)
          (.cons (.defaulted (fun hmember hleft =>
              answers_section hmember (LogConfig.answers_remains hleft)) fun given => ?_) .nil))))
    fun given given' hsame => ?_
  case refine_5 =>
    simp only [List.map_cons, List.map_nil, List.forall_mem_cons] at hsame
    simp only [completedBy, hsame]
  all_goals simp [completedBy, Json.also]

theorem reads {c : PipelineConfig} (h : c.Representable) :
    Reads PipelineConfig.read c.toJson c :=
  .record
    (.cons rfl rfl (c.strategies.reads.map _)
      (.cons rfl rfl ((LexicalConfig.reads h.lexical).map _)
        (.cons rfl rfl ((SyntacticConfig.reads h.syntactic).map _)
          (.cons rfl rfl (c.log.reads.map _) (.nil _)))))
    rfl

/-- A file with what is left of the text of settings, in whatever order and with whatever members of
other names, is read as these settings, but with the defaults where something is missing. The text
itself is read back. -/
theorem ofFile_completed {c : PipelineConfig} (h : c.Representable) :
    (∀ f text, Remains c.toJson f → Spaced f.tokens text →
      ofFile (some (Text.encode (String.ofList text))) = .ok (c.completed f.has)) ∧
    ∀ layout, ofFile (some (Text.encode (String.ofList (c.toJson.write layout [])))) = .ok c := by
  have hofFile {text : List Char} {c' : PipelineConfig}
      (hread : PipelineConfig.read.whole text = .ok c') :
      ofFile (some (Text.encode (String.ofList text))) = .ok c' := by
    rw [ofFile, Text.decode?_encode]
    dsimp only
    rw [String.toList_ofList, hread]
    rfl
  exact ⟨fun f text hleft htext => hofFile ((answers_remains h hleft).whole htext),
    fun layout => hofFile ((reads h).whole layout)⟩

/-- Settings of which three differ from the defaults. -/
def edited : PipelineConfig where
  lexical := { minimum := 2, lowercase := false }
  log := { level := "debug" }

/-- What is left of them: two settings, in sections that have changed places, and under another name
a member that is not read, although there is a setting of its name. -/
def editedRest : Form :=
  .object
    [(.ofString "log",
        .object
          [(.ofString "x", .object [(.ofString "level", .atom .null)]),
            (.ofString "level", .atom (.text (.ofString "debug")))]),
      (.ofString "lexical", .object [(.ofString "lowercase", .atom (.boolean false))])]

theorem remains_editedRest : Remains edited.toJson editedRest := by
  have hnames (s : String) : Json.Marks.string? (.ofString s) = some s :=
    Json.Marks.string?_ofString s
  refine .object (by simp [hnames]) (by simp [Json.names, hnames]) ?_
  rintro _ (_ | ⟨_, _ | ⟨_, ⟨⟩⟩⟩) name v hname hv <;> rw [hnames] at hname <;> cases hname
  · -- the log, with a member of another name before its level
    obtain rfl : v = edited.log.toJson := by simpa using hv
    refine .object (by simp [hnames]) (by simp [Json.names, hnames]) ?_
    rintro _ (_ | ⟨_, _ | ⟨_, ⟨⟩⟩⟩) name v hname hv <;> rw [hnames] at hname <;> cases hname
    · simp at hv
    · obtain rfl : v = .text edited.log.level := by simpa using hv
      exact .atom rfl
  · -- the lexical section, of which one setting is left
    obtain rfl : v = edited.lexical.toJson := by simpa using hv
    refine .object (by simp [hnames]) (by simp [Json.names, hnames]) ?_
    rintro _ (_ | ⟨_, ⟨⟩⟩) name v hname hv
    rw [hnames] at hname
    cases hname
    obtain rfl : v = .boolean edited.lexical.lowercase := by simpa using hv
    exact .atom rfl

theorem ofFile_completed_edited :
    ofFile (some (Text.encode ("\x7b\"log\":\x7b\"x\":\x7b\"level\":null\x7d,\"level\":" ++
        "\"debug\"\x7d,\"lexical\":\x7b\"lowercase\":false\x7d\x7d"))) =
      .ok { lexical := { lowercase := false }, log := { level := "debug" } } := by
  have hedited : edited.Representable :=
    ⟨⟨by decide, by decide +kernel, Json.Number.readsBack_half⟩, by constructor <;> decide⟩
  exact (ofFile_completed hedited).1 editedRest _ remains_editedRest (Spaced.flatten _)

end PipelineConfig

end ScriptFeatures.Config
