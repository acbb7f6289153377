import ScriptFeatures.Json.Numeral
import ScriptFeatures.Json.Quoted

/-! Reading values of a given shape from the front of a text.

A reader is a state transformer on the characters that are left. It reports the first fault from
left to right; a value of another shape is a mismatch only if what there is of it is well-formed so
far, so a scalar is read to its end before it is refused, and a container is refused at its bracket.

Loops over the items of a container are bounded by a text that is at least as long as the one they
read. -/

namespace ScriptFeatures.Json

/-- A reader of a value from the front of a text. -/
abbrev Read (α : Type) : Type :=
  StateT (List Char) (Except Fault) α

/-- Whether a character may stand around values. -/
def isBlank (c : Char) : Bool :=
  c = ' ' || c = '\t' || c = '\n' || c = '\r'

def dropBlanks (cs : List Char) : List Char :=
  cs.dropWhile isBlank

/-- Reads a word. -/
def expect : List Char → List Char → Except Fault (List Char)
  | [], cs => .ok cs
  | _ :: _, [] => .error .truncated
  | w :: ws, c :: cs => if w = c then expect ws cs else .error .malformed

def constant (v : Value) (word : List Char) (cs : List Char) :
    Except Fault (Value × List Char) := do
  return (v, ← expect word cs)

/-- Reads a value that is no container. -/
def readScalar (cs : List Char) : Except Fault (Value × List Char) :=
  match cs with
  | [] => .error .truncated
  | c :: rest =>
    if c = '"' then (unquote rest).map fun (s, rest) => (.text s, rest)
    else if c = 'n' then constant .null ['n', 'u', 'l', 'l'] cs
    else if c = 't' then constant (.boolean true) ['t', 'r', 'u', 'e'] cs
    else if c = 'f' then constant (.boolean false) ['f', 'a', 'l', 's', 'e'] cs
    else if c = '-' ∨ isDigit c then (Number.take cs).map fun (n, rest) => (.number n, rest)
    else .error .malformed

/-- Whether a text starts with a container. -/
def opens : List Char → Bool
  | c :: _ => c = '[' || c = '{'
  | [] => false

/-- The fault of a text that starts with a value of another shape than the one asked for. -/
def wrongShape (cs : List Char) : Fault :=
  if opens cs then .mismatch
  else
    match readScalar cs with
    | .ok _ => .mismatch
    | .error fault => fault

/-- Reads a scalar that `choose` accepts. -/
def scalar (choose : Value → Option α) : Read α := fun cs =>
  let cs := dropBlanks cs
  if opens cs then .error .mismatch
  else do
    let (v, rest) ← readScalar cs
    match choose v with
    | some a => return (a, rest)
    | none => throw .mismatch

def readText : Read String :=
  scalar fun
    | .text s => some s
    | _ => none

def readBoolean : Read Bool :=
  scalar fun
    | .boolean b => some b
    | _ => none

/-- Reads a natural number below `bound`, written as an integer. -/
def readNatural (bound : Nat) : Read Nat :=
  scalar fun
    | .number (.integer n) => if 0 ≤ n ∧ n < bound then some n.toNat else none
    | _ => none

/-- Reads a natural number of 64 bits. -/
def readWord : Read Nat :=
  readNatural UInt64.size

/-- Reads a number as binary64. -/
def readReal : Read Float :=
  scalar fun
    | .number n => some n.toFloat
    | _ => none

def readNull : Read Unit :=
  scalar fun
    | .null => some ()
    | _ => none

/-- Reads `null` as nothing, and anything else by `read`. -/
def optional (read : Read α) : Read (Option α) := fun cs =>
  match dropBlanks cs with
  | 'n' :: rest => do return (none, ← expect ['u', 'l', 'l'] rest)
  | cs => do
    let (a, rest) ← read cs
    return (some a, rest)

/-- Reads the colon between the name and the value of a member. -/
def readColon : Read Unit := fun cs =>
  match dropBlanks cs with
  | [] => .error .truncated
  | c :: rest => if c = ':' then .ok ((), rest) else .error .malformed

/-- Reads the closing brace of a value that is written as an object with one member. -/
def readClosing : Read Unit := fun cs =>
  match dropBlanks cs with
  | [] => .error .truncated
  | c :: rest => if c = '}' then .ok ((), rest) else .error .malformed

/-- Reads one of several names. It may also be written as an object whose only member has that name
and the value `null`. -/
def readName (named : String → Option α) : Read α := fun cs =>
  match dropBlanks cs with
  | [] => .error .truncated
  | c :: rest =>
    if c = '"' then scalar (fun | .text s => named s | _ => none) (c :: rest)
    else if c = '{' then
      (do
        let a ← scalar fun
          | .text s => named s
          | _ => none
        readColon
        readNull
        readClosing
        return a : Read α) rest
    else .error .malformed

/-! ## Containers -/

/-- Looks for the next item of an array, at its start or after an item. Answers whether there is
one, with the text from it on or the text after the bracket. -/
def nextItem (first : Bool) (cs : List Char) : Except Fault (Bool × List Char) :=
  match dropBlanks cs with
  | [] => .error .truncated
  | c :: rest =>
    if c = ']' then .ok (false, rest)
    else if first then .ok (true, c :: rest)
    else if c = ',' then
      match dropBlanks rest with
      | [] => .error .truncated
      | d :: rest => if d = ']' then .error .malformed else .ok (true, d :: rest)
    else .error .malformed

/-- Reads the items of an array up to its bracket; `done` holds the ones before, the last first. -/
def readItems (read : Read α) : List Char → Bool → List α → Read (List α)
  | [], _, _ => fun _ => .error .truncated
  | _ :: bound, first, done => fun cs => do
    let (more, cs) ← nextItem first cs
    if more then
      let (a, cs) ← read cs
      readItems read bound false (a :: done) cs
    else return (done.reverse, cs)

def listOf (read : Read α) : Read (List α) := fun cs =>
  match dropBlanks cs with
  | [] => .error .truncated
  | c :: rest =>
    if c = '[' then readItems read (c :: rest) true [] rest else .error (wrongShape (c :: rest))

/-- Looks for the next member of an object, at its start or after a member. Answers its name, with
the text after it, or nothing, with the text after the brace. -/
def nextMember (first : Bool) (cs : List Char) : Except Fault (Option String × List Char) :=
  match dropBlanks cs with
  | [] => .error .truncated
  | c :: rest =>
    if c = '}' then .ok (none, rest)
    else if first then
      if c = '"' then (unquote rest).map fun (name, rest) => (some name, rest)
      else .error .malformed
    else if c = ',' then
      match dropBlanks rest with
      | [] => .error .truncated
      | d :: rest =>
        if d = '"' then (unquote rest).map fun (name, rest) => (some name, rest)
        else .error .malformed
    else .error .malformed

/-- Reads the members of an object up to its brace. `step` goes on after the name of each. -/
def readMembers (step : σ → String → Read σ) : List Char → Bool → σ → Read σ
  | [], _, _ => fun _ => .error .truncated
  | _ :: bound, first, s => fun cs => do
    let (name, cs) ← nextMember first cs
    match name with
    | none => return (s, cs)
    | some name =>
      let (s, cs) ← step s name cs
      readMembers step bound false s cs

/-- Reads a text that holds one value and nothing else but blanks. -/
def Read.whole (read : Read α) (text : List Char) : Except Fault α := do
  let (a, rest) ← read text
  match dropBlanks rest with
  | [] => return a
  | _ :: _ => throw .malformed

end ScriptFeatures.Json
