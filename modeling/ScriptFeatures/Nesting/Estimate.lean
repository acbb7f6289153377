import ScriptFeatures.Nesting.Basic
import ScriptFeatures.Nesting.Skip

/-! The estimate of a text. `Scan.step` uses one token, decided by its first byte and by what the
token before it leads to expect; `estimate` repeats it to the end. -/

namespace ScriptFeatures.Nesting

/-! ## Words -/

/-- What a word does to the count. -/
inductive WordClass
  | relation
  | unary
  | head
  | value
  | opening
  | plain
  deriving DecidableEq, Repr

def WordClass.of (word : String) : WordClass :=
  match word with
  | "in" | "instanceof" => .relation
  | "typeof" | "void" | "delete" | "new" | "await" | "yield" => .unary
  | "if" | "while" | "for" | "with" | "do" | "else" => .head
  | "return" | "throw" | "case" => .value
  | "try" | "finally" | "var" | "let" | "const" | "switch" | "catch" => .opening
  | _ => .plain

/-- The bytes of an ASCII text as a string; other bytes become other characters. -/
def textOf (bytes : List UInt8) : String :=
  String.ofList (bytes.map fun b => Char.ofNat b.toNat)

/-- Counts a word. A word after a point is the name of a property, and a relational word counts only
after an operand. -/
def Scan.word (s : Scan) (word : String) : Scan :=
  if s.expect == .property then s.expecting .operator
  else
    match WordClass.of word with
    | .relation =>
      if s.expect == .operator then s.addBinary.expecting .operand
      else s.startOperand.expecting .operator
    | .unary => s.startOperand.addUnary.expecting .operand
    | .head => s.startOperand.addRight.expecting .statement
    | .value => s.startOperand.expecting .operand
    | .opening => s.startOperand.expecting .statement
    | .plain => s.startOperand.expecting .operator

/-! ## Marks -/

/-- The marks that are counted, longer ones before the marks that begin them. -/
def marks : List (List Char) :=
  [['>', '>', '>', '='], ['.', '.', '.'], ['=', '=', '='], ['!', '=', '='], ['*', '*', '='],
   ['<', '<', '='], ['>', '>', '='], ['>', '>', '>'], ['&', '&', '='], ['|', '|', '='],
   ['?', '?', '='], ['=', '>'], ['=', '='], ['!', '='], ['<', '='], ['>', '='], ['&', '&'],
   ['|', '|'], ['?', '?'], ['?', '.'], ['+', '+'], ['-', '-'], ['+', '='], ['-', '='], ['*', '='],
   ['/', '='], ['%', '='], ['&', '='], ['|', '='], ['^', '='], ['*', '*'], ['<', '<'], ['>', '>'],
   ['='], ['<'], ['>'], ['+'], ['-'], ['*'], ['%'], ['&'], ['|'], ['^'], ['!'], ['~'], ['?'], [':'],
   [';'], [','], ['.'], ['/'], ['@']]

inductive MarkClass
  | semicolon
  | comma
  | point
  | arrow
  | rightAssociative
  | not
  | update
  | sign
  | separator
  | binary
  deriving DecidableEq, Repr

def MarkClass.of (mark : String) : MarkClass :=
  match mark with
  | ";" => .semicolon
  | "," => .comma
  | "." | "?." => .point
  | "=>" => .arrow
  | "?" | "**" => .rightAssociative
  | "!" | "~" => .not
  | "++" | "--" => .update
  | "+" | "-" => .sign
  | ":" | "..." | "@" => .separator
  | "=" | "+=" | "-=" | "*=" | "/=" | "%=" | "**=" | "<<=" | ">>=" | ">>>=" | "&=" | "|=" | "^="
  | "&&=" | "||=" | "??=" => .rightAssociative
  | _ => .binary

/-- Whether commas on a level separate expressions of a sequence. -/
def Opening.holdsSequence : Opening → Bool
  | .root | .block | .paren | .template => true
  | .arguments | .array | .object => false

/-- Counts a mark. A sign after an operand is a binary operator. -/
def Scan.mark (s : Scan) (mark : MarkClass) : Scan :=
  match mark with
  | .semicolon => s.closeStatement.expecting .statement
  | .comma =>
    let s := s.closeElement
    (if s.frames.top.opening.holdsSequence then s.addComma else s).expecting .operand
  | .point => s.addChain.expecting .property
  | .arrow => s.addRight.expecting .arrowBody
  | .rightAssociative => s.addRight.expecting .operand
  | .not => s.startOperand.addUnary.expecting .operand
  | .update =>
    let s := s.startOperand
    if s.expect == .operator then s else s.addUnary.expecting .operand
  | .sign =>
    if s.expect == .operator then s.addBinary.expecting .operand
    else s.addUnary.expecting .operand
  | .separator => s.expecting .operand
  | .binary => s.addBinary.expecting .operand

/-- The mark at the head of a text and what follows it. A byte that begins none is passed over. -/
def readMark (text : List UInt8) : Option MarkClass × List UInt8 :=
  let head := (text.take 4).map fun b => Char.ofNat b.toNat
  match marks.find? (·.isPrefixOf head) with
  | some m => (some (.of (String.ofList m)), text.drop m.length)
  | none => (none, text.drop 1)

/-! ## Brackets -/

/-- Counts an opening parenthesis, which begins arguments after an operand. -/
def Scan.openParen (s : Scan) : Scan :=
  (if s.expect == .operator then s.addChain.push .arguments else s.push .paren).expecting .operand

/-- Counts an opening bracket, which begins an index after an operand. -/
def Scan.openBracket (s : Scan) : Scan :=
  ((if s.expect == .operator then s.addChain else s.startOperand).push .array).expecting .operand

/-- Counts an opening brace, which begins an object where an operand is expected. -/
def Scan.openBrace (s : Scan) : Scan :=
  if s.expect == .operand then (s.push .object).expecting .operand
  else (s.push .block).expecting .statement

def Scan.closeGroup (s : Scan) : Scan :=
  s.pop.2.expecting .operator

/-- Goes on with the text of a template: it ends, or an expression in it begins. -/
def Scan.template (s : Scan) (rest : List UInt8) : Scan × List UInt8 :=
  match skipTemplate rest with
  | (.closed, rest) => (s.expecting .operator, rest)
  | (.expression, rest) => ((s.push .template).expecting .operand, rest)

/-- Counts a closing brace and what follows it. The end of a block ends the statement around it. -/
def Scan.closeBrace (s : Scan) (rest : List UInt8) : Scan × List UInt8 :=
  match s.pop with
  | (some .template, s) => s.template rest
  | (some .block, s) =>
    ((if s.frames.top.holdsStatements then s.closeStatement else s).expecting .statement, rest)
  | (_, s) => (s.expecting .operator, rest)

/-! ## The scan -/

/-- Uses the token that begins with byte `b` and goes on with `rest`. -/
def Scan.token (s : Scan) (b : UInt8) (rest : List UInt8) : Scan × List UInt8 :=
  if b == 0x27 || b == 0x22 then (s.startOperand.expecting .operator, skipString b rest)
  else if b == 0x60 then s.startOperand.template rest
  else if isDigitByte b || (b == 0x2E && rest.head?.any isDigitByte) then
    (s.startOperand.expecting .operator, skipNumber rest)
  else if b == 0x28 then (s.openParen, rest)
  else if b == 0x5B then (s.openBracket, rest)
  else if b == 0x7B then (s.openBrace, rest)
  else if b == 0x29 || b == 0x5D then (s.closeGroup, rest)
  else if b == 0x7D then s.closeBrace rest
  else if b == 0x2F && s.expect != .operator then
    (s.startOperand.expecting .operator, skipRegExp rest)
  else if isWordByte b then
    (s.word (textOf (b :: rest.takeWhile isWordByte)), rest.dropWhile isWordByte)
  else
    match readMark (b :: rest) with
    | (some mark, rest) => (s.mark mark, rest)
    | (none, rest) => (s, rest)

/-- Uses white space, comments and one token; `none` at the end of the text. -/
def Scan.step (s : Scan) (text : List UInt8) : Option (Scan × List UInt8) :=
  match skipGap .between s.newline text with
  | (_, []) => none
  | (newline, b :: rest) =>
    let (s, rest) := { s with newline }.token b rest
    some ({ s with newline := false }, rest)

/-- The state at the end of a text. Every step uses at least one byte. -/
def Scan.run : Nat → Scan → List UInt8 → Scan
  | 0, s, _ => s
  | fuel + 1, s, text =>
    match s.step text with
    | none => s
    | some (s, rest) => Scan.run fuel s rest

/-- The estimate of a text given as bytes. -/
def estimateBytes (bytes : List UInt8) : Estimate :=
  (Scan.run bytes.length .start bytes).estimate

def estimate (source : String) : Estimate :=
  estimateBytes source.toUTF8.toList

end ScriptFeatures.Nesting
