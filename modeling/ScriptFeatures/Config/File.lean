import ScriptFeatures.Config.Basic
import ScriptFeatures.Text.Lines

/-! Settings as a file. Sections and settings that are missing have their defaults, others than the
known ones are passed over; a missing file is a file without settings. -/

namespace ScriptFeatures.Config

open Json (Read Value Fault)

def LexicalConfig.read : Read LexicalConfig :=
  Json.record
    [.defaulted "min_df" Json.readWord fun x c => { c with minimum := x },
      .defaulted "max_df" Json.readReal fun x c => { c with maximum := x },
      .defaulted "sublinear_tf" Json.readBoolean fun x c => { c with sublinear := x },
      .defaulted "lowercase" Json.readBoolean fun x c => { c with lowercase := x }]
    {}

def LexicalConfig.toJson (c : LexicalConfig) : Value :=
  .object [("min_df", .natural c.minimum), ("max_df", .real c.maximum),
    ("sublinear_tf", .boolean c.sublinear), ("lowercase", .boolean c.lowercase)]

def SyntacticConfig.read : Read SyntacticConfig :=
  Json.record
    [.defaulted "max_source_bytes" Json.readWord fun x c => { c with maxBytes := x },
      .defaulted "max_nesting_depth" Json.readWord fun x c => { c with maxNesting := x },
      .defaulted "max_expression_depth" Json.readWord fun x c =>
        { c with maxExpression := x },
      .defaulted "parse_timeout_ms" Json.readWord fun x c => { c with timeout := x },
      .defaulted "workers" Json.readWord fun x c => { c with workers := x },
      .defaulted "max_live_parsers" Json.readWord fun x c => { c with maxParsers := x }]
    {}

def SyntacticConfig.toJson (c : SyntacticConfig) : Value :=
  .object [("max_source_bytes", .natural c.maxBytes),
    ("max_nesting_depth", .natural c.maxNesting),
    ("max_expression_depth", .natural c.maxExpression), ("parse_timeout_ms", .natural c.timeout),
    ("workers", .natural c.workers), ("max_live_parsers", .natural c.maxParsers)]

def LogConfig.read : Read LogConfig :=
  Json.record
    [.defaulted "level" Json.readText fun x c => { c with level := x },
      .defaulted "json" Json.readBoolean fun x c => { c with json := x }]
    {}

def LogConfig.toJson (c : LogConfig) : Value :=
  .object [("level", .text c.level), ("json", .boolean c.json)]

def PipelineConfig.read : Read PipelineConfig :=
  Json.record
    [.defaulted "strategies" Pipeline.Strategies.read fun x c => { c with strategies := x },
      .defaulted "lexical" LexicalConfig.read fun x c => { c with lexical := x },
      .defaulted "syntactic" SyntacticConfig.read fun x c => { c with syntactic := x },
      .defaulted "log" LogConfig.read fun x c => { c with log := x }]
    {}

def PipelineConfig.toJson (c : PipelineConfig) : Value :=
  .object [("strategies", c.strategies.toJson), ("lexical", c.lexical.toJson),
    ("syntactic", c.syntactic.toJson), ("log", c.log.toJson)]

/-- Why a file of settings cannot be read: it is no text, or not what is expected in it. -/
inductive ConfigError
  | notText
  | invalid (fault : Fault)
  deriving DecidableEq, Repr, Inhabited

/-- Reads the settings from the bytes of a file, if there is one. -/
def PipelineConfig.ofFile : Option (List UInt8) → Except ConfigError PipelineConfig
  | none => .ok {}
  | some bytes =>
    match Text.decode? bytes with
    | none => .error .notText
    | some text => (PipelineConfig.read.whole text.toList).mapError .invalid

/-- Reads the settings from the bytes of a file; one that cannot be read counts as missing. -/
def PipelineConfig.ofFileOrDefault (file : Option (List UInt8)) : PipelineConfig :=
  match PipelineConfig.ofFile file with
  | .ok c => c
  | .error _ => {}

end ScriptFeatures.Config
