import ScriptFeatures.Json.Value

/-! Quoted texts. `quote` writes a text between quotes with escapes; `unquote` reads one after its
opening quote; `skipQuoted` runs over one without looking at what its escapes stand for. -/

namespace ScriptFeatures.Json

/-- A hexadecimal digit by value, in lower case. -/
def hexDigit (n : Nat) : Char :=
  if n < 10 then Char.ofNat (48 + n) else Char.ofNat (87 + n)

def hexValue? (c : Char) : Option Nat :=
  let n := c.toNat
  if 48 ≤ n ∧ n ≤ 57 then some (n - 48)
  else if 97 ≤ n ∧ n ≤ 102 then some (n - 87)
  else if 65 ≤ n ∧ n ≤ 70 then some (n - 55)
  else none

/-- The number that four hexadecimal digits write. -/
def hexUnit? (a b c d : Char) : Option Nat := do
  let a ← hexValue? a
  let b ← hexValue? b
  let c ← hexValue? c
  let d ← hexValue? d
  return ((a * 16 + b) * 16 + c) * 16 + d

/-- The character as it stands between quotes: quotes, backslashes and control characters are
escaped, all others are not. -/
def escape (c : Char) : List Char :=
  match c with
  | '"' => ['\\', '"']
  | '\\' => ['\\', '\\']
  | '\x08' => ['\\', 'b']
  | '\t' => ['\\', 't']
  | '\n' => ['\\', 'n']
  | '\x0c' => ['\\', 'f']
  | '\r' => ['\\', 'r']
  | c =>
    if c.toNat < 32 then
      ['\\', 'u', '0', '0', hexDigit (c.toNat / 16), hexDigit (c.toNat % 16)]
    else [c]

/-- Writes a text between quotes before `rest`. -/
def quote (s : String) (rest : List Char) : List Char :=
  '"' :: s.toList.foldr (fun c rest => escape c ++ rest) ('"' :: rest)

/-- The character that stands for itself or for a control character after a backslash. -/
def unescape? : Char → Option Char
  | '"' => some '"'
  | '\\' => some '\\'
  | '/' => some '/'
  | 'b' => some '\x08'
  | 'f' => some '\x0c'
  | 'n' => some '\n'
  | 'r' => some '\r'
  | 't' => some '\t'
  | _ => none

/-- The fault of an escape by number that is followed by fewer than four characters: the text ends
too early if it has fewer than four bytes left. -/
def shortEscape (cs : List Char) : Fault :=
  if (String.ofList cs).utf8ByteSize < 4 then .truncated else .malformed

/-- Whether a number is the first half of a character beyond `U+FFFF`. -/
def isLeading (n : Nat) : Bool :=
  0xD800 ≤ n && n < 0xDC00

/-- Whether a number is the second half of a character beyond `U+FFFF`. -/
def isTrailing (n : Nat) : Bool :=
  0xDC00 ≤ n && n < 0xE000

/-- The character of two halves. -/
def joined (leading trailing : Nat) : Char :=
  Char.ofNat ((leading - 0xD800) * 0x400 + (trailing - 0xDC00) + 0x10000)

/-- Reads up to the closing quote; `done` holds the characters before, the last first. -/
def unquoteOnto (done : List Char) : List Char → Except Fault (String × List Char)
  | [] => .error .truncated
  | c :: cs =>
    if c = '"' then .ok (String.ofList done.reverse, cs)
    else if c = '\\' then
      match cs with
      | [] => .error .truncated
      | e :: cs =>
        if e = 'u' then
          match cs with
          | h₁ :: h₂ :: h₃ :: h₄ :: cs =>
            match hexUnit? h₁ h₂ h₃ h₄ with
            | none => .error .malformed
            | some n =>
              if isTrailing n then .error .malformed
              else if isLeading n then
                match cs with
                | [] => .error .truncated
                | b :: cs =>
                  if b = '\\' then
                    match cs with
                    | [] => .error .truncated
                    | u :: cs =>
                      if u = 'u' then
                        match cs with
                        | l₁ :: l₂ :: l₃ :: l₄ :: cs =>
                          match hexUnit? l₁ l₂ l₃ l₄ with
                          | none => .error .malformed
                          | some m =>
                            if isTrailing m then unquoteOnto (joined n m :: done) cs
                            else .error .malformed
                        | cs => .error (shortEscape cs)
                      else .error .malformed
                  else .error .malformed
              else unquoteOnto (Char.ofNat n :: done) cs
          | cs => .error (shortEscape cs)
        else
          match unescape? e with
          | none => .error .malformed
          | some x => unquoteOnto (x :: done) cs
    else if c.toNat < 32 then .error .malformed
    else unquoteOnto (c :: done) cs

/-- Reads a quoted text after its opening quote. -/
def unquote (cs : List Char) : Except Fault (String × List Char) :=
  unquoteOnto [] cs

/-- Runs over a quoted text after its opening quote. Halves of characters need not be paired. -/
def skipQuoted : List Char → Except Fault (List Char)
  | [] => .error .truncated
  | c :: cs =>
    if c = '"' then .ok cs
    else if c = '\\' then
      match cs with
      | [] => .error .truncated
      | e :: cs =>
        if e = 'u' then
          match cs with
          | h₁ :: h₂ :: h₃ :: h₄ :: cs =>
            if (hexUnit? h₁ h₂ h₃ h₄).isSome then skipQuoted cs else .error .malformed
          | cs => .error (shortEscape cs)
        else if (unescape? e).isSome then skipQuoted cs
        else .error .malformed
    else if c.toNat < 32 then .error .malformed
    else skipQuoted cs

end ScriptFeatures.Json
