import ScriptFeatures.Script.Error
import ScriptFeatures.Script.Lexer
import ScriptFeatures.Script.Target

/-! The parser's view of a text, and how its parts call one another.

* A `Cursor` stands at a token that has been read and not yet used.
* A `Goal` is a nonterminal of the grammar that others need. The parts of the parser take a
  `Grammar`, which parses every goal, so each part is a plain definition; the grammar itself is the
  one recursive definition, in `ScriptFeatures.Script.Parser.Grammar`.
* `loop` repeats a step. Every step of the parser either ends its loop or uses a token, so the
  length of the text bounds the number of steps. -/

namespace ScriptFeatures.Script

/-- A place in a text: the token there, whether a line break precedes it, the text from its first
character, the text after it, and the length of the whole text. -/
structure Cursor where
  token : Token
  newline : Bool
  here : List Char
  rest : List Char
  size : Nat
  deriving Repr, Inhabited

/-- The cursor at the first token of a text. -/
def Cursor.at? (size : Nat) (text : List Char) : Option Cursor := do
  let (newline, here) ← skipGap .between false text
  let (token, rest) ← readToken (size + 1) here
  return { token, newline, here, rest, size }

/-- A parser: what it makes of the text at a cursor, and the cursor after it. -/
abbrev Parse := StateT Cursor (Except ScriptError)

/-- What surrounds an expression or a statement. -/
structure Context where
  inAllowed : Bool
  isGenerator : Bool
  isAsync : Bool
  returns : Bool
  deriving Repr, Inhabited, DecidableEq

def Context.top : Context :=
  ⟨true, false, false, false⟩

/-- The same surroundings, with the operator `in` allowed. -/
def Context.withIn (c : Context) : Context :=
  { c with inAllowed := true }

def Context.ofFunction (kind : FunctionKind) : Context :=
  ⟨true, kind.isGenerator, kind.isAsync, true⟩

/-- The nonterminals that the parts of the parser need from one another. An assignment is parsed
without giving its target's name to its value; `operand` parses the operators that bind at least as
tightly as the given level. -/
inductive Goal
  | assignment (c : Context)
  | operand (c : Context) (level : Nat)
  | unary (c : Context)
  | leftHandSide (c : Context)
  | callee (c : Context)
  | binding (c : Context)
  | statement (c : Context)
  | listItem (c : Context)

/-- What the parser makes of a goal. -/
abbrev Goal.Result : Goal → Type
  | .binding _ => Target
  | .statement _ | .listItem _ => Statement
  | _ => Expr

/-- A parser for every goal. -/
abbrev Grammar := (g : Goal) → Parse g.Result

namespace Parser

/-! ## Tokens -/

/-- Refuses the token at the cursor. -/
def unexpected {α : Type} : Parse α := do
  throw (.unexpected (← get).token)

/-- Refuses the text for breaking a rule beyond the grammar. -/
def refuse {α : Type} (e : EarlyError) : Parse α :=
  throw (.early e)

/-- Uses the token at the cursor. -/
def advance : Parse Unit := do
  let cursor ← get
  match Cursor.at? cursor.size cursor.rest with
  | some next => set next
  | none => throw .unreadable

/-- The token after the one at the cursor, and whether a line break precedes it. -/
def peek : Parse (Bool × Token) := do
  let cursor ← get
  match Cursor.at? cursor.size cursor.rest with
  | some next => return (next.newline, next.token)
  | none => throw .unreadable

/-- The second token after the one at the cursor. -/
def peekTwice : Parse Token := do
  let cursor ← get
  match Cursor.at? cursor.size cursor.rest with
  | some next =>
    match Cursor.at? cursor.size next.rest with
    | some second => return second.token
    | none => throw .unreadable
  | none => throw .unreadable

def atMark (mark : String) : Parse Bool := do
  return (← get).token == .mark mark

/-- Uses a given mark if it is at the cursor. -/
def eatMark (mark : String) : Parse Bool := do
  if ← atMark mark then
    advance
    return true
  else return false

/-- Uses a given mark, which must be at the cursor. -/
def expectMark (mark : String) : Parse Unit := do
  unless ← eatMark mark do unexpected

def atWord (word : String) : Parse Bool := do
  return (← get).token == .word word false

/-- Uses a given word if it is at the cursor. -/
def eatWord (word : String) : Parse Bool := do
  if ← atWord word then
    advance
    return true
  else return false

/-- Uses a given word, which must be at the cursor. -/
def expectWord (word : String) : Parse Unit := do
  unless ← eatWord word do unexpected

def atNewline : Parse Bool := do
  return (← get).newline

/-- Ends a statement: at a semicolon, or before a closing brace, the end of the text or a token on a
new line. -/
def endStatement : Parse Unit := do
  let cursor ← get
  match cursor.token with
  | .mark ";" => advance
  | .mark "\x7d" | .eof => return
  | _ => if cursor.newline then return else unexpected

/-- Whether a word can be an identifier in some context. -/
def canBeIdentifier (c : Context) (word : String) : Bool :=
  !isReserved word && !(c.isGenerator && word == "yield") && !(c.isAsync && word == "await")

def identifier (c : Context) : Parse Name := do
  match (← get).token with
  | .word text _ =>
    if canBeIdentifier c text then
      advance
      return text
    else unexpected
  | _ => unexpected

/-! ## Repetition -/

/-- Repeats a step on a state until it gives a result. -/
def loopFrom {σ α : Type} (step : σ → Parse (σ ⊕ α)) : Nat → σ → Parse α
  | 0, _, _ => .error .unfinished
  | fuel + 1, state, cursor =>
    match step state cursor with
    | .error e => .error e
    | .ok (.inl state, cursor) => loopFrom step fuel state cursor
    | .ok (.inr result, cursor) => .ok (result, cursor)

/-- Repeats a step on a state until it gives a result, at most once per character of the text. -/
def loop {σ α : Type} (start : σ) (step : σ → Parse (σ ⊕ α)) : Parse α := do
  loopFrom step ((← get).size + 2) start

def more {σ α : Type} (state : σ) : Parse (σ ⊕ α) :=
  return .inl state

def done {σ α : Type} (result : α) : Parse (σ ⊕ α) :=
  return .inr result

/-! ## Expressions in general -/

/-- An assignment expression; an assignment to a bare identifier gives its name to the value. -/
def assignment (g : Grammar) (c : Context) : Parse Expr := do
  return Phrase.nameAssigned (← g (.assignment c))

/-- Assignment expressions with commas between them. -/
def expression (g : Grammar) (c : Context) : Parse Expr := do
  let first ← assignment g c
  loop first fun left => do
    if ← eatMark "," then
      let right ← assignment g c
      more (.binary .comma left right)
    else done left

/-- An assignment expression after an equals sign, if there is one. -/
def initializer? (g : Grammar) (c : Context) : Parse (Option Expr) := do
  if ← eatMark "=" then return some (← assignment g c) else return none

end Parser

end ScriptFeatures.Script
