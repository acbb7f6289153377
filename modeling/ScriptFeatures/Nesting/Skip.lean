/-! The lengths of literals, words, white space and comments in a text given as bytes. Each function
returns what is left of the text, and a text that ends early leaves nothing. -/

namespace ScriptFeatures.Nesting

/-- Whether a byte is part of a word: an ASCII letter or digit, the low line, the dollar sign, the
backslash of an escape, or part of a character beyond ASCII. -/
def isWordByte (b : UInt8) : Bool :=
  (0x30 ≤ b && b ≤ 0x39) || (0x41 ≤ b && b ≤ 0x5A) || (0x61 ≤ b && b ≤ 0x7A) || b == 0x5F ||
    b == 0x24 || b == 0x5C || 0x80 ≤ b

def isDigitByte (b : UInt8) : Bool :=
  0x30 ≤ b && b ≤ 0x39

/-- Whether a byte is a line feed or a carriage return. -/
def isBreakByte (b : UInt8) : Bool :=
  b == 0x0A || b == 0x0D

/-- Where the reader of white space and comments is. -/
inductive Gap
  | between
  | line
  | block

/-- What follows white space and comments, and whether they held a line feed or a carriage
return. -/
def skipGap : Gap → Bool → List UInt8 → Bool × List UInt8
  | _, newline, [] => (newline, [])
  | .between, newline, 0x2F :: 0x2F :: rest => skipGap .line newline rest
  | .between, newline, 0x2F :: 0x2A :: rest => skipGap .block newline rest
  | .between, newline, b :: rest =>
    if isBreakByte b then skipGap .between true rest
    else if b == 0x20 || b == 0x09 || b == 0x0B || b == 0x0C then skipGap .between newline rest
    else (newline, b :: rest)
  | .line, newline, b :: rest =>
    if isBreakByte b then skipGap .between true rest else skipGap .line newline rest
  | .block, newline, 0x2A :: 0x2F :: rest => skipGap .between newline rest
  | .block, newline, b :: rest => skipGap .block (newline || isBreakByte b) rest

/-- What follows a string literal, given what follows its opening quote. A backslash hides the byte
after it; a line feed or carriage return ends the literal and is left. -/
def skipString (quote : UInt8) : List UInt8 → List UInt8
  | [] => []
  | 0x5C :: _ :: rest => skipString quote rest
  | [0x5C] => []
  | b :: rest =>
    if isBreakByte b then b :: rest
    else if b == quote then rest
    else skipString quote rest

inductive TemplateEnd
  | closed
  | expression
  deriving DecidableEq, Repr

/-- What follows the text of a template, and whether an expression follows it. -/
def skipTemplate : List UInt8 → TemplateEnd × List UInt8
  | [] => (.closed, [])
  | 0x5C :: _ :: rest => skipTemplate rest
  | [0x5C] => (.closed, [])
  | 0x60 :: rest => (.closed, rest)
  | 0x24 :: 0x7B :: rest => (.expression, rest)
  | _ :: rest => skipTemplate rest

/-- What follows the body of a regular expression, given what follows its opening slash. A slash in
a class does not end it; a line feed or carriage return ends it and is left. -/
def skipRegExpBody (inClass : Bool) : List UInt8 → List UInt8 × Bool
  | [] => ([], false)
  | 0x5C :: _ :: rest => skipRegExpBody inClass rest
  | [0x5C] => ([], false)
  | b :: rest =>
    if isBreakByte b then (b :: rest, false)
    else if b == 0x5B then skipRegExpBody true rest
    else if b == 0x5D then skipRegExpBody false rest
    else if b == 0x2F && !inClass then (rest, true)
    else skipRegExpBody inClass rest

/-- What follows a regular expression and its flags, given what follows its opening slash. -/
def skipRegExp (rest : List UInt8) : List UInt8 :=
  match skipRegExpBody false rest with
  | (rest, true) => rest.dropWhile isWordByte
  | (rest, false) => rest

def skipNumber (text : List UInt8) : List UInt8 :=
  text.dropWhile fun b => isWordByte b || b == 0x2E

end ScriptFeatures.Nesting
