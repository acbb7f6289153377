import ScriptFeatures.Script.Ast
import ScriptFeatures.Text.IdentifierClass

/-! Tokens of scripts, and the words that cannot be identifiers. -/

namespace ScriptFeatures.Script

/-- A token. Keywords are words: only the place of a word tells whether it is one. -/
inductive Token
  | eof
  | word (text : String) (escaped : Bool)
  | privateName (name : Name)
  | mark (text : String)
  | number (text : String) (legacyOctal : Bool)
  | bigint (text : String)
  | string (value : String) (spelling : StringSpelling)
  | template (raw : String) (valid last : Bool)
  | regExp (body flags : String)
  deriving DecidableEq, Repr, Inhabited

/-- Whether a token can begin the key of a member of an object or a class. -/
def Token.beginsKey : Token → Bool
  | .word _ _ | .string _ _ | .number _ _ | .bigint _ | .privateName _ => true
  | .mark text => text == "["
  | _ => false

/-- Whether a token after the word `static` makes it a modifier of a class element. -/
def Token.followsStatic : Token → Bool
  | .mark text => text == "[" || text == "*" || text == "\x7b"
  | token => token.beginsKey

/-- The words that are never identifiers. -/
def reservedWords : List String :=
  ["break", "case", "catch", "class", "const", "continue", "debugger", "default", "delete", "do",
   "else", "enum", "export", "extends", "false", "finally", "for", "function", "if", "import",
   "in", "instanceof", "new", "null", "return", "super", "switch", "this", "throw", "true", "try",
   "typeof", "var", "void", "while", "with"]

def strictReservedWords : List String :=
  ["implements", "interface", "let", "package", "private", "protected", "public", "static",
   "yield"]

/-- Whether a word is reserved everywhere. -/
def isReserved (word : String) : Bool :=
  reservedWords.contains word

/-- The marks, longer ones before the marks that begin them. -/
def marks : List (List Char) :=
  [['>', '>', '>', '='], ['.', '.', '.'], ['=', '=', '='], ['!', '=', '='], ['*', '*', '='],
   ['<', '<', '='], ['>', '>', '='], ['>', '>', '>'], ['&', '&', '='], ['|', '|', '='],
   ['?', '?', '='], ['=', '>'], ['=', '='], ['!', '='], ['<', '='], ['>', '='], ['&', '&'],
   ['|', '|'], ['?', '?'], ['+', '+'], ['-', '-'], ['+', '='], ['-', '='], ['*', '='], ['/', '='],
   ['%', '='], ['&', '='], ['|', '='], ['^', '='], ['*', '*'], ['<', '<'], ['>', '>'], ['('],
   [')'], ['['], [']'], ['\x7b'], ['\x7d'], [';'], [','], ['.'], ['='], ['<'], ['>'], ['+'],
   ['-'], ['*'], ['/'], ['%'], ['&'], ['|'], ['^'], ['!'], ['~'], ['?'], [':']]

end ScriptFeatures.Script
