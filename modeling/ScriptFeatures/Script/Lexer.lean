import ScriptFeatures.Script.Character
import ScriptFeatures.Script.RegExp
import ScriptFeatures.Script.Token

/-! Reading one token at the head of a text.

A slash and a closing brace each begin two kinds of token, and only the grammar knows which one is
meant. `readToken` reads them as marks; `readRegExp` and `readTemplate` read the other kind when the
parser asks for it. Every function returns what is left of the text. The functions that do not
follow the text one character at a time take the length of the whole text as fuel. -/

namespace ScriptFeatures.Script

open Text

/-! ## White space and comments -/

/-- Where the reader of white space and comments is. -/
inductive Gap
  | between
  | line
  | block

/-- What follows white space and comments, and whether they held a line break; `none` if a comment
is not closed. -/
def skipGap : Gap → Bool → List Char → Option (Bool × List Char)
  | .between, newline, '/' :: '/' :: rest => skipGap .line newline rest
  | .between, newline, '/' :: '*' :: rest => skipGap .block newline rest
  | .between, newline, c :: rest =>
    if isLineBreak c then skipGap .between true rest
    else if isSpace c then skipGap .between newline rest
    else some (newline, c :: rest)
  | .line, newline, c :: rest =>
    if isLineBreak c then skipGap .between true rest else skipGap .line newline rest
  | .block, newline, '*' :: '/' :: rest => skipGap .between newline rest
  | .block, newline, c :: rest => skipGap .block (newline || isLineBreak c) rest
  | .between, newline, [] | .line, newline, [] => some (newline, [])
  | .block, _, [] => none

/-! ## Words -/

/-- Whether a character can extend a word that holds the characters `read` so far. -/
def extendsWord (read : List Char) (c : Char) : Bool :=
  if read.isEmpty then isIdentifierStart c else isIdentifierPart c

/-- Reads a word, whose characters so far are `read`, last first. -/
def readWord : Nat → List Char → Bool → List Char → Option (String × Bool × List Char)
  | 0, _, _, _ => none
  | fuel + 1, read, _, '\\' :: rest =>
    match rest with
    | 'u' :: rest =>
      match readUnicodeEscape rest with
      | some (code, rest) =>
        if !isSurrogate code && extendsWord read (codeChar code) then
          readWord fuel (codeChar code :: read) true rest
        else none
      | none => none
    | _ => none
  | fuel + 1, read, escaped, c :: rest =>
    if extendsWord read c then readWord fuel (c :: read) escaped rest
    else if read.isEmpty then none
    else some (String.ofList read.reverse, escaped, c :: rest)
  | _ + 1, read, escaped, [] =>
    if read.isEmpty then none else some (String.ofList read.reverse, escaped, [])

/-! ## Numbers -/

/-- Whether separators stand only between digits. -/
def separatorsFit : Bool → List Char → Bool
  | afterDigit, [] => afterDigit
  | afterDigit, '_' :: rest => afterDigit && separatorsFit false rest
  | _, _ :: rest => separatorsFit true rest

/-- One or more digits of a kind, with separators between them. -/
def readDigits (isDigit : Char → Bool) (cs : List Char) : Option (List Char × List Char) :=
  let (digits, rest) := cs.span fun c => isDigit c || c == '_'
  if separatorsFit false digits then some (digits, rest) else none

/-- A number token, which no digit, letter or escape may follow. -/
def finishNumber (token : Token) (rest : List Char) : Option (Token × List Char) :=
  match rest with
  | [] => some (token, [])
  | c :: _ => if c.isDigit || isIdentifierStart c || c == '\\' then none else some (token, rest)

/-- The exponent of a decimal literal, if there is one. -/
def readExponent : List Char → Option (List Char × List Char)
  | c :: rest =>
    if c == 'e' || c == 'E' then
      match rest with
      | s :: digits =>
        if s == '+' || s == '-' then
          (readDigits Char.isDigit digits).map fun (ds, rest) => (c :: s :: ds, rest)
        else (readDigits Char.isDigit rest).map fun (ds, rest) => (c :: ds, rest)
      | [] => none
    else some ([], c :: rest)
  | [] => some ([], [])

/-- What follows the integer digits of a decimal literal: a fraction and an exponent. -/
def readDecimal (whole : List Char) (legacyOctal : Bool) (rest : List Char) :
    Option (Token × List Char) := do
  let (fraction, rest) ←
    match rest with
    | '.' :: d :: more =>
      if d.isDigit then (readDigits Char.isDigit (d :: more)).map fun (ds, r) => ('.' :: ds, r)
      else some (['.'], d :: more)
    | ['.'] => some (['.'], [])
    | _ => some ([], rest)
  let (exponent, rest) ← readExponent rest
  finishNumber (.number (String.ofList (whole ++ fraction ++ exponent)) legacyOctal) rest

/-- An integer literal, or a big one if the letter `n` ends it. -/
def finishInteger (text : List Char) (rest : List Char) : Option (Token × List Char) :=
  match rest with
  | 'n' :: rest => finishNumber (.bigint (String.ofList text)) rest
  | _ => finishNumber (.number (String.ofList text) false) rest

/-- A literal with a base letter after its zero. -/
def readBased (letter : Char) (isDigit : Char → Bool) (rest : List Char) :
    Option (Token × List Char) := do
  let (digits, rest) ← readDigits isDigit rest
  finishInteger ('0' :: letter :: digits) rest

def isBinaryDigit (c : Char) : Bool :=
  c == '0' || c == '1'

/-- A decimal literal that does not begin with a zero before another digit. -/
def readPlainNumber (cs : List Char) : Option (Token × List Char) := do
  let (whole, rest) ← readDigits Char.isDigit cs
  match rest with
  | 'n' :: _ => finishInteger whole rest
  | _ => readDecimal whole false rest

/-- A numeric literal, given that the text begins with one. A zero before another digit writes an
octal integer if all digits are octal, and a decimal literal otherwise; strict code refuses both. -/
def readNumber : List Char → Option (Token × List Char)
  | '.' :: rest => readDecimal [] false ('.' :: rest)
  | '0' :: c :: rest =>
    if c == 'x' || c == 'X' then readBased c isHexDigit rest
    else if c == 'o' || c == 'O' then readBased c isOctalDigit rest
    else if c == 'b' || c == 'B' then readBased c isBinaryDigit rest
    else if c == '_' then none
    else if c.isDigit then
      let (digits, rest) := (c :: rest).span Char.isDigit
      if digits.all isOctalDigit then
        finishNumber (.number (String.ofList ('0' :: digits)) true) rest
      else readDecimal ('0' :: digits) true rest
    else readPlainNumber ('0' :: c :: rest)
  | cs => readPlainNumber cs

/-! ## Strings -/

/-- The more telling of two spellings. -/
def StringSpelling.join : StringSpelling → StringSpelling → StringSpelling
  | .legacyOctal, _ | _, .legacyOctal => .legacyOctal
  | .escaped, _ | _, .escaped => .escaped
  | .plain, .plain => .plain

/-- The characters of an octal escape, given its first digit: up to three digits, the value below
256. -/
def readOctalEscape (first : Char) (rest : List Char) : Char × List Char :=
  let digits := (rest.takeWhile isOctalDigit).take (if first ≤ '3' then 2 else 1)
  (Char.ofNat ((first :: digits).foldl (fun n d => n * 8 + (d.toNat - '0'.toNat)) 0),
    rest.drop digits.length)

/-- What an escape stands for, given what follows the backslash: its characters, its spelling and
the rest of the text. -/
def readStringEscape : List Char → Option (List Char × StringSpelling × List Char)
  | '\r' :: '\n' :: rest => some ([], .escaped, rest)
  | 'x' :: a :: b :: rest =>
    if isHexDigit a && isHexDigit b then
      some ([codeChar (hexNumber [a, b])], .escaped, rest)
    else none
  | 'u' :: rest =>
    (readUnicodeEscape rest).map fun (code, rest) => ([codeChar code], .escaped, rest)
  | 'x' :: _ => none
  | c :: rest =>
    if isLineBreak c then some ([], .escaped, rest)
    else if c == '0' && !(rest.head?.any Char.isDigit) then some (['\x00'], .escaped, rest)
    else if isOctalDigit c then
      let (value, rest) := readOctalEscape c rest
      some ([value], .legacyOctal, rest)
    else if c == '8' || c == '9' then some ([c], .legacyOctal, rest)
    else
      let value :=
        match c with
        | 'b' => '\x08'
        | 'f' => '\x0c'
        | 'n' => '\n'
        | 'r' => '\r'
        | 't' => '\t'
        | 'v' => '\x0b'
        | c => c
      some ([value], .escaped, rest)
  | [] => none

/-- Reads the rest of a string literal, whose value so far is `read`, last character first. -/
def readString (quote : Char) : Nat → List Char → StringSpelling → List Char →
    Option (Token × List Char)
  | 0, _, _, _ => none
  | fuel + 1, read, spelling, '\\' :: rest =>
    match readStringEscape rest with
    | some (value, escape, rest) =>
      readString quote fuel (value ++ read) (spelling.join escape) rest
    | none => none
  | fuel + 1, read, spelling, c :: rest =>
    if c == quote then some (.string (String.ofList read.reverse) spelling, rest)
    else if c == '\n' || c == '\r' then none
    else readString quote fuel (c :: read) spelling rest
  | _ + 1, _, _, [] => none

/-! ## Templates -/

/-- Whether what follows a backslash is an escape that a template without a tag may hold. -/
def templateEscapeValid : List Char → Bool
  | 'x' :: rest =>
    match rest with
    | a :: b :: _ => isHexDigit a && isHexDigit b
    | _ => false
  | 'u' :: rest => (readUnicodeEscape rest).isSome
  | '0' :: rest => !(rest.head?.any Char.isDigit)
  | c :: _ => !c.isDigit
  | [] => false

/-- Reads the text of a template up to its end or to the next opening of an expression; `read` is
the text so far, last character first. -/
def readTemplate (read : List Char) (valid : Bool) : List Char → Option (Token × List Char)
  | '\x60' :: rest => some (.template (String.ofList read.reverse) valid true, rest)
  | '$' :: '\x7b' :: rest => some (.template (String.ofList read.reverse) valid false, rest)
  | '\\' :: c :: rest =>
    readTemplate (c :: '\\' :: read) (valid && templateEscapeValid (c :: rest)) rest
  | c :: rest => readTemplate (c :: read) valid rest
  | [] => none

/-! ## Regular expressions -/

/-- Reads the body of a regular expression up to its closing slash; `read` is the body so far, last
character first. -/
def readRegExpBody (read : List Char) (inClass : Bool) :
    List Char → Option (List Char × List Char)
  | '\\' :: c :: rest =>
    if isLineBreak c then none else readRegExpBody (c :: '\\' :: read) inClass rest
  | '[' :: rest => readRegExpBody ('[' :: read) true rest
  | ']' :: rest => readRegExpBody (']' :: read) false rest
  | '/' :: rest =>
    if inClass then readRegExpBody ('/' :: read) inClass rest else some (read.reverse, rest)
  | c :: rest => if isLineBreak c then none else readRegExpBody (c :: read) inClass rest
  | [] => none

/-- Reads a regular expression literal, given what follows its opening slash. -/
def readRegExp (rest : List Char) : Option (Token × List Char) := do
  let (body, rest) ← readRegExpBody [] false rest
  let (flags, rest) := rest.span isIdentifierPart
  if rest.head? == some '\\' || !RegExp.wellFormed body flags then none
  else some (.regExp (String.ofList body) (String.ofList flags), rest)

/-! ## Tokens -/

/-- The longest mark at the head of a text. A question mark and a point are one mark unless a digit
follows. -/
def readMark : List Char → Option (Token × List Char)
  | '?' :: '.' :: rest =>
    if rest.head?.any Char.isDigit then some (.mark "?", '.' :: rest) else some (.mark "?.", rest)
  | cs =>
    match marks.find? (·.isPrefixOf cs) with
    | some m => some (.mark (String.ofList m), cs.drop m.length)
    | none => none

/-- The token at the head of a text that does not begin with white space or a comment. -/
def readToken (fuel : Nat) : List Char → Option (Token × List Char)
  | [] => some (.eof, [])
  | c :: rest =>
    if c == '"' || c == '\'' then readString c fuel [] .plain rest
    else if c == '\x60' then readTemplate [] true rest
    else if c.isDigit || (c == '.' && rest.head?.any Char.isDigit) then readNumber (c :: rest)
    else if c == '#' then
      (readWord fuel [] false rest).map fun (text, _, rest) => (.privateName text, rest)
    else if isIdentifierStart c || c == '\\' then
      (readWord fuel [] false (c :: rest)).map fun (text, escaped, rest) =>
        (.word text escaped, rest)
    else readMark (c :: rest)

end ScriptFeatures.Script
