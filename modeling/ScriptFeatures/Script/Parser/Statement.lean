import ScriptFeatures.Script.Parser.Expression

/-! Statements and declarations. -/

namespace ScriptFeatures.Script.Parser

/-! ## Declarations of variables -/

/-- One variable and its value. A pattern needs a value, and so does a constant; `headAllowed` says
that the variable may turn out to be the head of a `for`-`in` or `for`-`of` statement, which needs
none. -/
def declarator (g : Grammar) (c : Context) (kind : VariableKind) (headAllowed : Bool) :
    Parse (Phrase .declarator) := do
  let target ← g (.binding c)
  match ← initializer? g c with
  | some value => return .declarator target (.present (Phrase.nameAfter target value))
  | none =>
    let needsValue :=
      match target with
      | .targetName _ => kind == .const
      | _ => true
    let atHead := (← atWord "of") || (← atWord "in")
    if needsValue && !(headAllowed && atHead) then refuse .missingInitializer
    return .declarator target .absent

/-- The variables after the first one. -/
def moreDeclarators (g : Grammar) (c : Context) (kind : VariableKind) :
    Parse (Phrase (.list .declarator)) :=
  loop [] fun ds => do
    if ← eatMark "," then more ((← declarator g c kind false) :: ds)
    else done (.ofReversed ds)

/-- A variable statement or a lexical declaration after its keyword. -/
def variableDeclaration (g : Grammar) (c : Context) (kind : VariableKind) : Parse Statement := do
  let first ← declarator g c.withIn kind false
  let others ← moreDeclarators g c.withIn kind
  endStatement
  return .variableDeclaration kind first others

/-- Whether the token after the word `let` makes it the keyword of a declaration. -/
def letDeclares : Parse Bool := do
  match (← peek).2 with
  | .word text _ => return !isReserved text
  | .mark text => return text == "[" || text == "\x7b"
  | _ => return false

/-! ## Loops -/

/-- A condition in parentheses. -/
def condition (g : Grammar) (c : Context) : Parse Expr := do
  expectMark "("
  let test ← expression g c.withIn
  expectMark ")"
  return test

/-- An expression before a given mark, which is used, if there is one. -/
def optionalBefore (g : Grammar) (c : Context) (mark : String) :
    Parse (Phrase (.optional .expr)) := do
  if ← eatMark mark then return .absent
  else
    let value ← expression g c.withIn
    expectMark mark
    return .present value

/-- The rest of a `for` statement with three parts, after its first semicolon. -/
def forLoopRest (g : Grammar) (c : Context) (start : Phrase .start) : Parse Statement := do
  let test ← optionalBefore g c ";"
  let step ← optionalBefore g c ")"
  return .forLoop start test step (← g (.statement c))

/-- The rest of a `for`-`in` statement, after the word `in`. -/
def forInRest (g : Grammar) (c : Context) (head : Phrase .head) : Parse Statement := do
  let subject ← expression g c.withIn
  expectMark ")"
  return .forIn head subject (← g (.statement c))

/-- The rest of a `for`-`of` statement, after the word `of`. -/
def forOfRest (g : Grammar) (c : Context) (isAwait : Bool) (head : Phrase .head) :
    Parse Statement := do
  let subject ← assignment g c.withIn
  expectMark ")"
  return .forOf isAwait head subject (← g (.statement c))

/-- A `for` statement that declares variables, after their keyword. -/
def forVariables (g : Grammar) (c : Context) (isAwait : Bool) (kind : VariableKind) :
    Parse Statement := do
  let first ← declarator g { c with inAllowed := false } kind true
  match first with
  | .declarator target .absent =>
    if ← eatWord "of" then forOfRest g c isAwait (.headVariable kind target)
    else if isAwait then unexpected
    else if ← eatWord "in" then forInRest g c (.headVariable kind target)
    else rest first
  | _ => if isAwait then unexpected else rest first
where
  /-- The variables after the first one, and the other parts of the statement. -/
  rest (first : Phrase .declarator) : Parse Statement := do
    let others ← moreDeclarators g { c with inAllowed := false } kind
    expectMark ";"
    forLoopRest g c (.startVariables kind first others)

/-- A `for` statement that begins with an expression. The word `let` cannot begin the head of a
`for`-`of` statement, and the word `async` alone cannot be it unless it awaits. -/
def forExpression (g : Grammar) (c : Context) (isAwait : Bool) : Parse Statement := do
  let startsWithLet ← atWord "let"
  let startsWithAsync ← atWord "async"
  let value ← expression g { c with inAllowed := false }
  if ← atWord "of" then
    let isAsyncAlone :=
      match value with
      | .name _ => startsWithAsync
      | _ => false
    if startsWithLet || (isAsyncAlone && !isAwait) then unexpected
    else
      advance
      match value.asTarget with
      | some target => forOfRest g c isAwait (.headTarget target)
      | none => refuse .invalidTarget
  else if isAwait then unexpected
  else if ← eatWord "in" then
    match value.asTarget with
    | some target => forInRest g c (.headTarget target)
    | none => refuse .invalidTarget
  else
    expectMark ";"
    forLoopRest g c (.startExpr value)

/-- A `for` statement after its keyword. -/
def forStatement (g : Grammar) (c : Context) : Parse Statement := do
  let isAwait ← if c.isAsync then eatWord "await" else pure false
  expectMark "("
  if ← atMark ";" then
    if isAwait then unexpected
    else
      advance
      forLoopRest g c .startNothing
  else if ← eatWord "var" then forVariables g c isAwait .var
  else if ← eatWord "const" then forVariables g c isAwait .const
  else if ← atWord "let" then
    if ← letDeclares then
      advance
      forVariables g c isAwait .lets
    else forExpression g c isAwait
  else forExpression g c isAwait

/-! ## Other statements -/

/-- Statements in braces, after the opening brace. -/
def blockStatements (g : Grammar) (c : Context) : Parse (Phrase (.list .statement)) :=
  loop [] fun statements => do
    if ← eatMark "\x7d" then done (.ofReversed statements)
    else more ((← g (.listItem c)) :: statements)

/-- The statements of a `switch` clause. -/
def clauseStatements (g : Grammar) (c : Context) : Parse (Phrase (.list .statement)) :=
  loop [] fun statements => do
    let ends := (← atMark "\x7d") || (← atWord "case") || (← atWord "default")
    if ends then done (.ofReversed statements)
    else more ((← g (.listItem c)) :: statements)

/-- The clauses of a `switch` statement, after the opening brace; one of them may be the default. -/
def clauses (g : Grammar) (c : Context) : Parse (Phrase (.list .clause)) :=
  loop ([], false) fun (cs, hasDefault) => do
    if ← eatMark "\x7d" then done (.ofReversed cs)
    else if ← eatWord "case" then
      let test ← expression g c.withIn
      expectMark ":"
      more (.clause (.present test) (← clauseStatements g c) :: cs, hasDefault)
    else
      expectWord "default"
      if hasDefault then unexpected
      expectMark ":"
      more (.clause .absent (← clauseStatements g c) :: cs, true)

/-- The handler of a `try` statement after its keyword. -/
def handlerRest (g : Grammar) (c : Context) : Parse (Phrase .handler) := do
  let binding ←
    if ← eatMark "(" then do
      let target ← g (.binding c)
      expectMark ")"
      pure (.present target)
    else pure .absent
  expectMark "\x7b"
  return .handler binding (← blockStatements g c)

/-- A `try` statement after its keyword. It has a handler, a finalizer or both. -/
def tryStatement (g : Grammar) (c : Context) : Parse Statement := do
  expectMark "\x7b"
  let statements ← blockStatements g c
  let caught ← if ← eatWord "catch" then pure (some (← handlerRest g c)) else pure none
  if ← eatWord "finally" then
    expectMark "\x7b"
    return .tryBlock statements (.ofOption caught) (← blockStatements g c)
  else if caught.isSome then return .tryBlock statements (.ofOption caught) .nil
  else unexpected

/-- The label of a `break` or `continue` statement, on the same line as its keyword. -/
def labelOnLine (c : Context) : Parse (Option Name) := do
  let cursor ← get
  match cursor.token with
  | .word _ _ => if cursor.newline then return none else return some (← identifier c)
  | _ => return none

/-- The value of a `return` statement, on the same line as its keyword. -/
def valueOnLine (g : Grammar) (c : Context) : Parse (Phrase (.optional .expr)) := do
  let cursor ← get
  match cursor.token with
  | .mark ";" | .mark "\x7d" | .eof => return .absent
  | _ => if cursor.newline then return .absent else return .present (← expression g c.withIn)

/-- A statement that is an expression. It cannot begin like a declaration. -/
def expressionStatement (g : Grammar) (c : Context) : Parse Statement := do
  let token := (← get).token
  if token == .word "function" false || token == .word "class" false then unexpected
  if token == .word "let" false then
    if (← peek).2 == .mark "[" then unexpected
  if token == .word "async" false then
    if (← peek) == (false, .word "function" false) then unexpected
  let value ← expression g c.withIn
  endStatement
  return .expression value

def ifStatement (g : Grammar) (c : Context) : Parse Statement := do
  let test ← condition g c
  let yes ← g (.statement c)
  let no ← if ← eatWord "else" then pure (.present (← g (.statement c))) else pure .absent
  return .choose test yes no

/-- A `do` statement after its keyword. A semicolon after it can always be left out. -/
def doStatement (g : Grammar) (c : Context) : Parse Statement := do
  let body ← g (.statement c)
  expectWord "while"
  let test ← condition g c
  let _ ← eatMark ";"
  return .doWhile body test

/-- A `throw` statement after its keyword, whose value is on the same line. -/
def throwStatement (g : Grammar) (c : Context) : Parse Statement := do
  if ← atNewline then unexpected
  let value ← expression g c.withIn
  endStatement
  return .throwValue value

/-- A `break` or `continue` statement after its keyword. -/
def jumpStatement (c : Context) (make : Option Name → Statement) : Parse Statement := do
  let label ← labelOnLine c
  endStatement
  return make label

/-- A statement that begins with a word, which is a label if a colon follows it. -/
def fromWord (g : Grammar) (c : Context) (word : String) : Parse Statement := do
  if canBeIdentifier c word then
    if (← peek).2 == .mark ":" then
      advance
      advance
      return .labelled word (← g (.statement c))
  expressionStatement g c

/-- A statement that begins with a word written without escapes. -/
def keywordStatement (g : Grammar) (c : Context) (word : String) : Parse Statement := do
  match word with
  | "if" => advance; ifStatement g c
  | "for" => advance; forStatement g c
  | "while" =>
    advance
    let test ← condition g c
    return .whileLoop test (← g (.statement c))
  | "do" => advance; doStatement g c
  | "continue" => advance; jumpStatement c .continueLoop
  | "break" => advance; jumpStatement c .breakOut
  | "return" =>
    if c.returns then
      advance
      let value ← valueOnLine g c
      endStatement
      return .returnValue value
    else unexpected
  | "with" =>
    advance
    let subject ← condition g c
    return .withObject subject (← g (.statement c))
  | "switch" =>
    advance
    let subject ← condition g c
    expectMark "\x7b"
    return .switch subject (← clauses g c)
  | "throw" => advance; throwStatement g c
  | "try" => advance; tryStatement g c
  | "debugger" => advance; endStatement; return .debugger
  | "var" => advance; variableDeclaration g c .var
  | _ => fromWord g c word

/-- A statement that is not a declaration. -/
def statement (g : Grammar) (c : Context) : Parse Statement := do
  match (← get).token with
  | .mark "\x7b" => advance; return .block (← blockStatements g c)
  | .mark ";" => advance; return .empty
  | .word text false => keywordStatement g c text
  | .word text true => fromWord g c text
  | _ => expressionStatement g c

/-- A statement or declaration in a list of statements. -/
def listItem (g : Grammar) (c : Context) : Parse Statement := do
  match (← get).token with
  | .word "function" false => advance; functionDeclaration g c false
  | .word "class" false => advance; classDeclaration g c
  | .word "const" false => advance; variableDeclaration g c .const
  | .word "let" false =>
    if ← letDeclares then
      advance
      variableDeclaration g c .lets
    else statement g c
  | .word "async" false =>
    if (← peek) == (false, .word "function" false) then
      advance
      advance
      functionDeclaration g c true
    else statement g c
  | _ => statement g c

end ScriptFeatures.Script.Parser
