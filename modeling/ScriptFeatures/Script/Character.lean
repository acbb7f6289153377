/-! The character classes of scripts, and Unicode escapes. -/

namespace ScriptFeatures.Script

def isLineBreak (c : Char) : Bool :=
  c == '\n' || c == '\r' || c == '\u2028' || c == '\u2029'

/-- Whether a character is white space other than a line break: tab, vertical tab, form feed, the
byte order mark and the space separators (Zs). -/
def isSpace (c : Char) : Bool :=
  c == ' ' || c == '\t' || c == '\x0b' || c == '\x0c' ||
    (c.toNat ≥ 0x80 &&
      (c == '\u00a0' || c == '\ufeff' || c == '\u1680' || ('\u2000' ≤ c && c ≤ '\u200a') ||
        c == '\u202f' || c == '\u205f' || c == '\u3000'))

def hexValue? (c : Char) : Option Nat :=
  if '0' ≤ c && c ≤ '9' then some (c.toNat - '0'.toNat)
  else if 'a' ≤ c && c ≤ 'f' then some (c.toNat - 'a'.toNat + 10)
  else if 'A' ≤ c && c ≤ 'F' then some (c.toNat - 'A'.toNat + 10)
  else none

def isHexDigit (c : Char) : Bool :=
  (hexValue? c).isSome

def isOctalDigit (c : Char) : Bool :=
  '0' ≤ c && c ≤ '7'

def hexNumber (digits : List Char) : Nat :=
  digits.foldl (fun n c => n * 16 + (hexValue? c).getD 0) 0

/-! ## Unicode escapes -/

/-- The code point of a Unicode escape, given what follows `\u`. -/
def readUnicodeEscape : List Char → Option (Nat × List Char)
  | '\x7b' :: rest =>
    let (digits, rest) := rest.span isHexDigit
    match rest with
    | '\x7d' :: rest =>
      let code := hexNumber digits
      if digits.isEmpty || 0x10FFFF < code then none else some (code, rest)
    | _ => none
  | a :: b :: c :: d :: rest =>
    if isHexDigit a && isHexDigit b && isHexDigit c && isHexDigit d then
      some (hexNumber [a, b, c, d], rest)
    else none
  | _ => none

/-- Whether a code point is half of a surrogate pair. -/
def isSurrogate (code : Nat) : Bool :=
  0xD800 ≤ code && code ≤ 0xDFFF

/-- The character of a code point; half of a surrogate pair is held as the replacement
character. -/
def codeChar (code : Nat) : Char :=
  if isSurrogate code then '\ufffd' else Char.ofNat code

end ScriptFeatures.Script
