import ScriptFeatures.Config.Basic
import ScriptFeatures.Nesting.Estimate
import ScriptFeatures.Script.EarlyErrors
import ScriptFeatures.Script.Lowering
import ScriptFeatures.Script.Parser.Grammar

/-! Parsing scripts within limits. Size and nesting are checked before the parser runs, so that its
work is bounded by them whatever the text. -/

namespace ScriptFeatures.Syntactic

open Script (ScriptError)
open ScriptFeatures.Tree (SyntaxTree)

/-- The limits of parsing. `parsers` is the number of parsers that may be alive at once. -/
structure Limits where
  bytes : Nat
  nesting : Nat
  expression : Nat
  parsers : Nat
  deriving DecidableEq, Repr, Inhabited

/-- The limits that settings ask for. There may be as many parsers as there are workers, at least
one. -/
def Limits.ofConfig (c : Config.SyntacticConfig) : Limits :=
  ⟨c.maxBytes, c.maxNesting, c.maxExpression, max c.maxParsers (max c.workers 1)⟩

/-- The largest number of nodes on a path of a tree. It is a sum of 64 bits: limits that add up to
more start again from 0. -/
def Limits.treeDepth (l : Limits) : Nat :=
  (l.nesting + l.expression) % UInt64.size

/-- Why a text has no tree. -/
inductive ParseError
  | invalid (error : ScriptError)
  | tooLarge (bytes limit : Nat)
  | tooDeep (depth limit : Nat)
  | saturated
  deriving DecidableEq, Repr, Inhabited

/-- The text of an error. Scripts are parsed one at a time, so it is only a limit of 0 that leaves
no parser to use. -/
def ParseError.message : ParseError → String
  | .invalid _ => "syntax error"
  | .tooLarge bytes limit => s!"source is {bytes} bytes, limit is {limit}"
  | .tooDeep depth limit => s!"nesting depth {depth} exceeds limit {limit}"
  | .saturated => "0 parser threads alive, limit is 0"

/-- Parses a text as a script and checks it. -/
def scriptOf (source : String) : Except ScriptError Script.Program := do
  let script ← Script.Parser.parse source.toList
  script.check.mapError .early
  return script

/-- The tree of a script within limits. Of several limits that a text exceeds, the first of size,
nesting, depth of expressions and depth of the tree is reported. -/
def parse (limits : Limits) (source : String) : Except ParseError SyntaxTree :=
  if source.utf8ByteSize > limits.bytes then
    .error (.tooLarge source.utf8ByteSize limits.bytes)
  else
    let estimate := Nesting.estimate source
    if estimate.descent > limits.nesting then
      .error (.tooDeep estimate.descent limits.nesting)
    else if estimate.depth > limits.expression then
      .error (.tooDeep estimate.depth limits.expression)
    else if limits.parsers = 0 then .error .saturated
    else
      match scriptOf source with
      | .error e => .error (.invalid e)
      | .ok script =>
        match script.tree? limits.treeDepth with
        | some tree => .ok tree
        | none => .error (.tooDeep (limits.treeDepth + 1) limits.treeDepth)

end ScriptFeatures.Syntactic
