import ScriptFeatures.Script.Character
import ScriptFeatures.Script.RegExpProperty
import ScriptFeatures.Text.IdentifierClass

/-! Well-formed regular expressions: the pattern grammar of regular expression literals, strict with
one of the flags `u` and `v`, and with the usual leniency for old patterns without them.

The pattern is read once from left to right. The reader keeps the open groups and whether a
quantifier may follow; classes and escapes are read by functions of their own. -/

namespace ScriptFeatures.Script.RegExp

open Text

/-- What is known about a pattern before it is checked: whether it is strict, whether its classes
nest, its number of groups and the names of the named ones. -/
structure Outline where
  strict : Bool
  sets : Bool
  groups : Nat
  names : List String

/-- A group name up to its closing angle bracket; `read` is the name so far, last character
first. -/
def readName : Nat → List Char → List Char → Option (String × List Char)
  | 0, _, _ => none
  | _ + 1, read, '>' :: rest =>
    if read.isEmpty then none else some (String.ofList read.reverse, rest)
  | fuel + 1, read, '\\' :: 'u' :: rest =>
    match readUnicodeEscape rest with
    | some (code, rest) => readName fuel (codeChar code :: read) rest
    | none => none
  | fuel + 1, read, c :: rest =>
    if if read.isEmpty then isIdentifierStart c else isIdentifierPart c then
      readName fuel (c :: read) rest
    else none
  | _ + 1, _, [] => none

/-- Counts the groups of a pattern and collects their names. -/
def survey : Nat → Bool → Nat → List String → List Char → Nat × List String
  | 0, _, groups, names, _ => (groups, names)
  | fuel + 1, inClass, groups, names, cs =>
    match cs with
    | [] => (groups, names)
    | '\\' :: _ :: rest => survey fuel inClass groups names rest
    | '[' :: rest => survey fuel true groups names rest
    | ']' :: rest => survey fuel false groups names rest
    | '(' :: '?' :: '<' :: c :: rest =>
      if inClass || c == '=' || c == '!' then survey fuel inClass groups names rest
      else
        match readName fuel [] (c :: rest) with
        | some (name, rest) => survey fuel inClass (groups + 1) (name :: names) rest
        | none => survey fuel inClass (groups + 1) names rest
    | '(' :: '?' :: rest => survey fuel inClass groups names rest
    | '(' :: rest => survey fuel inClass (if inClass then groups else groups + 1) names rest
    | _ :: rest => survey fuel inClass groups names rest

/-! ## Escapes -/

/-- Whether a character may be escaped without a meaning of its own in a strict pattern. -/
def isSyntaxMark (c : Char) : Bool :=
  "^$\\.*+?()[]\x7b\x7d|/".toList.contains c

/-- What an escape stands for: a character, a set of characters, a set that holds sequences of
characters, or an assertion. -/
inductive Escape
  | character (code : Nat)
  | set
  | sequences
  | assertion

/-- A property in braces: one that is true or false, a general category, or a property with a value
after an equals sign. Properties of sequences belong to patterns with nested classes, and have no
complement. -/
def readProperty (o : Outline) (complement : Bool) : List Char → Option (Escape × List Char)
  | '\x7b' :: rest =>
    let (name, rest) := rest.span fun c => c.isAlphanum || c == '_'
    let name := String.ofList name
    match rest with
    | '\x7d' :: rest =>
      if categoryNames.contains name || binaryNames.contains name then some (.set, rest)
      else if o.sets && !complement && stringNames.contains name then some (.sequences, rest)
      else none
    | '=' :: rest =>
      let (value, rest) := rest.span fun c => c.isAlphanum || c == '_'
      match rest with
      | '\x7d' :: rest =>
        if isValueName name (String.ofList value) then some (.set, rest) else none
      | _ => none
    | _ => none
  | _ => none

/-- A back reference by number, given all its digits. -/
def readReference (o : Outline) (cs : List Char) : Option (Escape × List Char) :=
  let (digits, rest) := cs.span Char.isDigit
  let number := digits.foldl (fun n d => n * 10 + (d.toNat - '0'.toNat)) 0
  if o.strict && o.groups < number then none else some (.character number, rest)

/-- An escape, given what follows its backslash. -/
def readEscape (o : Outline) (fuel : Nat) (inClass : Bool) :
    List Char → Option (Escape × List Char)
  | [] => none
  | c :: rest =>
    if c == 'd' || c == 'D' || c == 's' || c == 'S' || c == 'w' || c == 'W' then some (.set, rest)
    else if c == 'b' then some (if inClass then .character 8 else .assertion, rest)
    else if c == 'B' && !inClass then some (.assertion, rest)
    else if c == '-' && inClass then some (.character c.toNat, rest)
    else if (c == 'p' || c == 'P') && o.strict then readProperty o (c == 'P') rest
    else if c == 'f' then some (.character 12, rest)
    else if c == 'n' then some (.character 10, rest)
    else if c == 'r' then some (.character 13, rest)
    else if c == 't' then some (.character 9, rest)
    else if c == 'v' then some (.character 11, rest)
    else if c == 'c' then
      match rest with
      | l :: rest' =>
        if l.isAlpha then some (.character (l.toNat % 32), rest')
        else if o.strict then none
        else some (.character 92, c :: rest)
      | [] => if o.strict then none else some (.character 92, c :: rest)
    else if c == 'x' then
      match rest with
      | a :: b :: rest' =>
        if isHexDigit a && isHexDigit b then some (.character (hexNumber [a, b]), rest')
        else if o.strict then none
        else some (.character c.toNat, rest)
      | _ => if o.strict then none else some (.character c.toNat, rest)
    else if c == 'u' then
      match rest, readUnicodeEscape rest with
      | '\x7b' :: _, some (code, rest') =>
        if o.strict then some (.character code, rest') else some (.character c.toNat, rest)
      | _, some (code, rest') => some (.character code, rest')
      | _, none => if o.strict then none else some (.character c.toNat, rest)
    else if c == 'k' && !inClass && (o.strict || !o.names.isEmpty) then
      match rest with
      | '<' :: rest =>
        match readName fuel [] rest with
        | some (name, rest) =>
          if o.names.contains name then some (.character 0, rest) else none
        | none => none
      | _ => none
    else if c == '0' then
      if o.strict && rest.head?.any Char.isDigit then none else some (.character 0, rest)
    else if c.isDigit then
      if inClass && o.strict then none else readReference o (c :: rest)
    else if o.strict then if isSyntaxMark c then some (.character c.toNat, rest) else none
    else some (.character c.toNat, rest)

/-! ## Classes -/

/-- One element of a class: the code point of a character, or none for a set. -/
def readClassAtom (o : Outline) (fuel : Nat) : List Char → Option (Option Nat × List Char)
  | '\\' :: rest =>
    (readEscape o fuel true rest).map fun
      | (.character code, rest) => (some code, rest)
      | (_, rest) => (none, rest)
  | c :: rest => some (some c.toNat, rest)
  | [] => none

/-- What follows a class, given what follows its opening bracket. A range must not be empty, and in
a strict pattern it runs between characters. -/
def readClass (o : Outline) : Nat → List Char → Option (List Char)
  | 0, _ => none
  | _ + 1, ']' :: rest => some rest
  | fuel + 1, cs => do
    let (low, rest) ← readClassAtom o fuel cs
    match rest with
    | '-' :: next :: more =>
      if next == ']' then some more
      else
        let (high, rest) ← readClassAtom o fuel (next :: more)
        match low, high with
        | some a, some b => if a ≤ b then readClass o fuel rest else none
        | _, _ => if o.strict then none else readClass o fuel rest
    | _ => readClass o fuel rest

/-! ## Nested classes

A class that may hold classes is a union, an intersection or a difference of operands. A class with
a sequence of several characters in it has no complement. -/

/-- Whether a character has a meaning of its own in a nested class. -/
def isSetMark (c : Char) : Bool :=
  "()[]\x7b\x7d/-\\|".toList.contains c

/-- Whether two of a character are kept free for operators. -/
def isSetDouble (c : Char) : Bool :=
  "&!#$%*+,.:;<=>?@^\x60~".toList.contains c

/-- Whether a character stands for itself after a backslash in a nested class. -/
def isSetEscape (c : Char) : Bool :=
  "&-!#%,:;<=>@\x60~".toList.contains c

/-- An operand: the code point of a character, or a set that may hold sequences. -/
inductive Operand
  | character (code : Nat)
  | set (sequences : Bool)

/-- Whether an operand may hold a sequence of several characters. -/
def Operand.sequences : Operand → Bool
  | .character _ => false
  | .set sequences => sequences

def readSetCharacter (o : Outline) (fuel : Nat) : List Char → Option (Nat × List Char)
  | '\\' :: c :: rest =>
    if isSetEscape c then some (c.toNat, rest)
    else
      match readEscape o fuel true (c :: rest) with
      | some (.character code, rest) => some (code, rest)
      | _ => none
  | c :: rest =>
    if isSetMark c || (isSetDouble c && rest.head? == some c) then none
    else some (c.toNat, rest)
  | [] => none

/-- What follows a list of sequences between braces, after its opening brace, and whether one of
them is not a single character. `size` is the length of the sequence so far. -/
def readSequences (o : Outline) : Nat → Nat → Bool → List Char → Option (Bool × List Char)
  | 0, _, _, _ => none
  | _ + 1, size, found, '\x7d' :: rest => some (found || size != 1, rest)
  | fuel + 1, size, found, '|' :: rest => readSequences o fuel 0 (found || size != 1) rest
  | fuel + 1, size, found, cs => do
    let (_, rest) ← readSetCharacter o fuel cs
    readSequences o fuel (size + 1) found rest

mutual

def readOperand (o : Outline) : Nat → List Char → Option (Operand × List Char)
  | 0, _ => none
  | fuel + 1, '[' :: '^' :: rest => do
    let (sequences, rest) ← readSet o fuel rest
    if sequences then none else some (.set false, rest)
  | fuel + 1, '[' :: rest => do
    let (sequences, rest) ← readSet o fuel rest
    return (.set sequences, rest)
  | fuel + 1, '\\' :: 'q' :: '\x7b' :: rest => do
    let (sequences, rest) ← readSequences o fuel 0 false rest
    return (.set sequences, rest)
  | fuel + 1, cs =>
    match readSetCharacter o fuel cs, cs with
    | some (code, rest), _ => some (.character code, rest)
    | none, '\\' :: rest =>
      match readEscape o fuel true rest with
      | some (.set, rest) => some (.set false, rest)
      | some (.sequences, rest) => some (.set true, rest)
      | _ => none
    | none, _ => none

/-- What follows a nested class, after its opening bracket, and whether it may hold sequences. -/
def readSet (o : Outline) : Nat → List Char → Option (Bool × List Char)
  | 0, _ => none
  | _ + 1, ']' :: rest => some (false, rest)
  | fuel + 1, cs => do
    let (first, rest) ← readOperand o fuel cs
    match rest with
    | '-' :: '-' :: rest => readOperands o fuel '-' first.sequences rest
    | '&' :: '&' :: rest => readOperands o fuel '&' first.sequences rest
    | _ => readUnion o fuel first first.sequences rest

/-- The operands after the first operator of a difference or an intersection. -/
def readOperands (o : Outline) : Nat → Char → Bool → List Char → Option (Bool × List Char)
  | 0, _, _, _ => none
  | fuel + 1, operator, sequences, cs => do
    if operator == '&' && cs.head? == some '&' then none
    let (next, rest) ← readOperand o fuel cs
    let sequences := if operator == '&' then sequences && next.sequences else sequences
    match rest with
    | ']' :: rest => some (sequences, rest)
    | a :: b :: rest =>
      if a == operator && b == operator then readOperands o fuel operator sequences rest else none
    | _ => none

/-- The operands of a union after the first one, which may go on as a range. -/
def readUnion (o : Outline) :
    Nat → Operand → Bool → List Char → Option (Bool × List Char)
  | 0, _, _, _ => none
  | _ + 1, _, sequences, ']' :: rest => some (sequences, rest)
  | fuel + 1, last, sequences, '-' :: rest => do
    let (high, rest) ← readSetCharacter o fuel rest
    match last with
    | .character low =>
      if low ≤ high then readUnion o fuel (.set false) sequences rest else none
    | .set _ => none
  | fuel + 1, _, sequences, cs => do
    let (next, rest) ← readOperand o fuel cs
    readUnion o fuel next (sequences || next.sequences) rest

end

/-! ## Patterns -/

/-- A quantifier in braces: whether its bounds are in order, and what follows. -/
def readBraces (cs : List Char) : Option (Bool × List Char) :=
  let value := fun (ds : List Char) => ds.foldl (fun n d => n * 10 + (d.toNat - '0'.toNat)) 0
  let (low, rest) := cs.span Char.isDigit
  if low.isEmpty then none
  else
    match rest with
    | '\x7d' :: rest => some (true, rest)
    | ',' :: rest =>
      let (high, rest) := rest.span Char.isDigit
      match rest with
      | '\x7d' :: rest => some (high.isEmpty || value low ≤ value high, rest)
      | _ => none
    | _ => none

/-- What follows the question mark that makes a quantifier lazy, if it is there. -/
def dropLazy : List Char → List Char
  | '?' :: rest => rest
  | rest => rest

/-- Checks a pattern. `opened` holds, for each open group, whether a quantifier may follow it, and
`quantifiable` whether one may follow here. -/
def check (o : Outline) : Nat → List Bool → Bool → List Char → Bool
  | 0, _, _, _ => false
  | fuel + 1, opened, quantifiable, cs =>
    match cs with
    | [] => opened.isEmpty
    | '(' :: '?' :: rest =>
      match rest with
      | ':' :: rest => check o fuel (true :: opened) false rest
      | '=' :: rest | '!' :: rest => check o fuel ((!o.strict) :: opened) false rest
      | '<' :: '=' :: rest | '<' :: '!' :: rest => check o fuel (false :: opened) false rest
      | '<' :: rest =>
        match readName fuel [] rest with
        | some (_, rest) => check o fuel (true :: opened) false rest
        | none => false
      | _ => false
    | '(' :: rest => check o fuel (true :: opened) false rest
    | ')' :: rest =>
      match opened with
      | allowed :: outer => check o fuel outer allowed rest
      | [] => false
    | '|' :: rest | '^' :: rest | '$' :: rest => check o fuel opened false rest
    | '*' :: rest | '+' :: rest | '?' :: rest =>
      quantifiable && check o fuel opened false (dropLazy rest)
    | '\x7b' :: rest =>
      match readBraces rest with
      | some (ordered, rest) => quantifiable && ordered && check o fuel opened false (dropLazy rest)
      | none => !o.strict && check o fuel opened true rest
    | '\x7d' :: rest | ']' :: rest => !o.strict && check o fuel opened true rest
    | '[' :: rest =>
      let inside := if rest.head? == some '^' then rest.drop 1 else rest
      match if o.sets then (readOperand o fuel cs).map (·.2) else readClass o fuel inside with
      | some rest => check o fuel opened true rest
      | none => false
    | '\\' :: rest =>
      match readEscape o fuel false rest with
      | some (.assertion, rest) => check o fuel opened false rest
      | some (_, rest) => check o fuel opened true rest
      | none => false
    | _ :: rest => check o fuel opened true rest

/-- Whether the flags are known, each given once, and not both of `u` and `v`. -/
def flagsFit (flags : List Char) : Bool :=
  flags.all (fun c => "dgimsuvy".toList.contains c && flags.count c == 1) &&
    !(flags.contains 'u' && flags.contains 'v')

def distinct : List String → Bool
  | [] => true
  | n :: rest => !rest.contains n && distinct rest

def wellFormed (body flags : List Char) : Bool :=
  let fuel := body.length + 1
  let (groups, names) := survey fuel false 0 [] body
  let sets := flags.contains 'v'
  let outline := ⟨sets || flags.contains 'u', sets, groups, names⟩
  flagsFit flags && distinct names && check outline fuel [] false body

end ScriptFeatures.Script.RegExp
