import ScriptFeatures.Script.Parser.Statement

/-! The grammar of scripts: the parts of the parser, each given the others. -/

namespace ScriptFeatures.Script.Parser

/-- One level of the grammar: parses a goal, and the goals inside it with `g`. -/
def parseWith (g : Grammar) : Grammar
  | .assignment c => bareAssignment g c
  | .operand c level => operand g c level
  | .unary c => unary g c
  | .leftHandSide c => leftHandSide g c
  | .callee c => callee g c
  | .binding c => binding g c
  | .statement c => statement g c
  | .listItem c => listItem g c

/-- The grammar down to a depth of goals inside goals. -/
def grammar : Nat → Grammar
  | 0 => fun _ => throw .unfinished
  | depth + 1 => fun goal => parseWith (grammar depth) goal

/-- A script, given the length of its text. Between two goals inside each other that use no token
there are at most two others, so three times the length bounds the depth. -/
def script (size : Nat) : Parse Program := do
  let (statements, strict) ← statementsUntil (grammar (3 * size + 4)) .top .eof
  return ⟨strict, statements.reverse⟩

/-- The text after a first line that names an interpreter. -/
def dropInterpreter : List Char → List Char
  | '#' :: '!' :: rest => rest.dropWhile fun c => !isLineBreak c
  | cs => cs

/-- Parses a text as a script, without the rules beyond the grammar that need to know what is
declared around a place. -/
def parse (text : List Char) : Except ScriptError Program :=
  let size := text.length
  match Cursor.at? size (dropInterpreter text) with
  | none => .error .unreadable
  | some cursor => (script size).run' cursor

end ScriptFeatures.Script.Parser
