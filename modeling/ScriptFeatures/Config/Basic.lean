import ScriptFeatures.Pipeline.Strategy

/-! What a user can set. Every setting has a default. -/

namespace ScriptFeatures.Config

/-- How a vocabulary is fitted. Its terms stand in at least `minimum` documents and in at most the
share `maximum` of all documents; `sublinear` weighs a term by the logarithm of its count. -/
structure LexicalConfig where
  minimum : Nat := 5
  maximum : Float := 0.5
  sublinear : Bool := true
  lowercase : Bool := true
  deriving Repr, Inhabited

/-- What bounds the parsing of scripts: their size in bytes, their nesting and their depth of
expressions as estimated beforehand, the milliseconds spent on one (0: no bound), the number of
workers (0: as many as there are processors) and of parsers alive at once. -/
structure SyntacticConfig where
  maxBytes : Nat := 4 * 1024 * 1024
  maxNesting : Nat := 512
  maxExpression : Nat := 4096
  timeout : Nat := 5000
  workers : Nat := 0
  maxParsers : Nat := 256
  deriving DecidableEq, Repr, Inhabited

/-- How much is logged, and whether as JSON. -/
structure LogConfig where
  level : String := "info"
  json : Bool := true
  deriving DecidableEq, Repr, Inhabited

structure PipelineConfig where
  strategies : Pipeline.Strategies := Pipeline.Strategies.none.insert .statistical
  lexical : LexicalConfig := {}
  syntactic : SyntacticConfig := {}
  log : LogConfig := {}
  deriving Repr, Inhabited

end ScriptFeatures.Config
