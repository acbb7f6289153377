import ScriptFeatures.Script.Parser.Binding

/-! Functions, methods and arrow bodies. -/

namespace ScriptFeatures.Script.Parser

/-! ## Bodies -/

/-- Whether a statement is a directive, and whether it is the strict one: a string literal alone,
written without escapes. -/
def directive? : Statement → Option Bool
  | .expression (.literal (.string value spelling)) =>
    some (value == "use strict" && spelling == .plain)
  | _ => none

/-- Statements read so far, last first, and what their directives say. -/
structure Prologue where
  statements : List Statement
  announcing : Bool
  strict : Bool

/-- Statements up to a given token, and whether they begin with the strict directive. -/
def statementsUntil (g : Grammar) (c : Context) (last : Token) : Parse (List Statement × Bool) :=
  loop (⟨[], true, false⟩ : Prologue) fun p => do
    if (← get).token == last then
      unless last == .eof do advance
      done (p.statements, p.strict)
    else
      let s ← g (.listItem c)
      match p.announcing, directive? s with
      | true, some strict => more ⟨s :: p.statements, true, p.strict || strict⟩
      | _, _ => more ⟨s :: p.statements, false, p.strict⟩

/-- The body of a function, after its opening brace. -/
def functionBody (g : Grammar) (c : Context) : Parse (Phrase .body) := do
  let (statements, strict) ← statementsUntil g c (.mark "\x7d")
  return .bodyBlock strict (.ofReversed statements)

/-! ## Parameters -/

def parameter (g : Grammar) (c : Context) : Parse (Phrase .parameter) := do
  let target ← g (.binding c)
  match ← initializer? g c.withIn with
  | some value => return .parameterDefault target value
  | none => return .parameter target

def parameters (g : Grammar) (c : Context) : Parse (Phrase (.list .parameter)) :=
  loop [] fun ps => do
    if ← eatMark ")" then done (.ofReversed ps)
    else if ← eatMark "..." then
      let target ← g (.binding c)
      expectMark ")"
      done (.ofReversed (.parameterRest target :: ps))
    else
      let ps := (← parameter g c) :: ps
      if ← eatMark "," then more ps
      else
        expectMark ")"
        done (.ofReversed ps)

/-! ## Definitions -/

/-- Parameters and body of a function of a given kind. -/
def callable (g : Grammar) (kind : FunctionKind) : Parse (Phrase .callable) := do
  let inside := Context.ofFunction kind
  expectMark "("
  let ps ← parameters g inside
  expectMark "\x7b"
  return .callable ps (← functionBody g inside)

/-- Parameters and body of a method. A getter has no parameter, a setter has one. -/
def methodCallable (g : Grammar) : MethodKind → Parse (Phrase .callable)
  | .function kind => callable g kind
  | .getter => do
    expectMark "("
    expectMark ")"
    expectMark "\x7b"
    return .callable .nil (← functionBody g (.ofFunction .ordinary))
  | .setter => do
    let inside := Context.ofFunction .ordinary
    expectMark "("
    let p ← parameter g inside
    expectMark ")"
    expectMark "\x7b"
    return .callable (.cons p .nil) (← functionBody g inside)

/-- A function expression after the word `function`. Its name is read inside the function. -/
def functionExpression (g : Grammar) (isAsync : Bool) : Parse Expr := do
  let isGenerator ← eatMark "*"
  let kind := FunctionKind.of isAsync isGenerator
  let naming ←
    if ← atMark "(" then pure .anonymous
    else pure (.written (← identifier (.ofFunction kind)))
  return .function naming kind (← callable g kind)

/-- A function declaration after the word `function`. Its name is read outside the function. -/
def functionDeclaration (g : Grammar) (c : Context) (isAsync : Bool) : Parse Statement := do
  let isGenerator ← eatMark "*"
  let kind := FunctionKind.of isAsync isGenerator
  let name ← identifier c
  return .functionDeclaration name kind (← callable g kind)

/-- The body of an arrow function after the arrow: statements in braces, or a value. -/
def arrowBody (g : Grammar) (c : Context) (isAsync : Bool) : Parse (Phrase .body) := do
  if ← eatMark "\x7b" then
    functionBody g (.ofFunction (.of isAsync false))
  else
    return .bodyValue (← assignment g { c with isGenerator := false, isAsync })

/-! ## Methods -/

/-- Uses the words and marks before the key of a method, and says what kind of method they announce.
A word announces one only if a key can follow it, `async` only on the same line. -/
def methodAnnounced : Parse (Option MethodKind) := do
  if ← eatMark "*" then return some (.function .generator)
  match (← get).token with
  | .word "async" false =>
    let (newline, next) ← peek
    if newline then return none
    else if next == .mark "*" then
      advance
      advance
      return some (.function .asyncGenerator)
    else if next.beginsKey then
      advance
      return some (.function .async)
    else return none
  | .word "get" false =>
    if (← peek).2.beginsKey then
      advance
      return some .getter
    else return none
  | .word "set" false =>
    if (← peek).2.beginsKey then
      advance
      return some .setter
    else return none
  | _ => return none

end ScriptFeatures.Script.Parser
