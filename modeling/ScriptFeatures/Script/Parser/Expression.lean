import ScriptFeatures.Script.Parser.Class

/-! Expressions, from literals up to assignments. A function whose name ends in `Tail` goes on from
an expression that has been read. -/

namespace ScriptFeatures.Script.Parser

/-! ## Arguments and literals -/

/-- An argument or an array element that is there. -/
def presentItem (g : Grammar) (c : Context) : Parse (Phrase .item) := do
  if ← eatMark "..." then return .itemSpread (← assignment g c.withIn)
  else return .item (← assignment g c.withIn)

/-- Arguments, after their opening parenthesis. -/
def arguments (g : Grammar) (c : Context) : Parse (Phrase (.list .item)) :=
  loop [] fun items => do
    if ← eatMark ")" then done (.ofReversed items)
    else
      let items := (← presentItem g c) :: items
      if ← eatMark "," then more items
      else
        expectMark ")"
        done (.ofReversed items)

/-- An array literal, after its opening bracket. -/
def arrayLiteral (g : Grammar) (c : Context) : Parse Expr :=
  loop ([], false) fun (items, afterComma) => do
    if ← eatMark "]" then done (.array (.ofReversed items) afterComma)
    else if ← eatMark "," then more (.itemHole :: items, false)
    else
      let items := (← presentItem g c) :: items
      if ← eatMark "," then more (items, true)
      else
        expectMark "]"
        done (.array (.ofReversed items) false)

/-- One member of an object literal. A key alone is a shorthand, which a default can follow. -/
def objectMember (g : Grammar) (c : Context) : Parse (Phrase .member) := do
  if ← eatMark "..." then return .memberSpread (← assignment g c.withIn)
  else
    match ← methodAnnounced with
    | some kind =>
      let key ← key g c false
      return .memberMethod kind key (← methodCallable g kind)
    | none =>
      let token := (← get).token
      let key ← key g c false
      if ← atMark "(" then
        return .memberMethod (.function .ordinary) key (← callable g .ordinary)
      else if ← eatMark ":" then
        return .member key (Phrase.nameAfterKey key (← assignment g c.withIn))
      else
        match token with
        | .word text _ =>
          if canBeIdentifier c text then
            match ← initializer? g c.withIn with
            | some value => return .coverDefault text (value.nameAs text)
            | none => return .shorthand text
          else throw (.unexpected token)
        | _ => unexpected

/-- An object literal, after its opening brace. -/
def objectLiteral (g : Grammar) (c : Context) : Parse Expr :=
  loop ([], false) fun (members, afterComma) => do
    if ← eatMark "\x7d" then done (.object (.ofReversed members) afterComma)
    else
      let members := (← objectMember g c) :: members
      if ← eatMark "," then more (members, true)
      else
        expectMark "\x7d"
        done (.object (.ofReversed members) false)

/-! ## Templates -/

/-- What has been read of a template: its texts and its expressions, last first. -/
structure TemplateParts where
  texts : List String
  holes : List Expr

/-- Reads the text after the closing brace at the cursor as the next text of a template. -/
def resumeTemplate : Parse Unit := do
  let cursor ← get
  unless cursor.token == .mark "\x7d" do unexpected
  match readTemplate [] true cursor.rest with
  | some (token, rest) => set { cursor with token, rest }
  | none => throw .unreadable

/-- A template, whose first text is at the cursor. Without a tag, every escape must be valid. -/
def templateParts (g : Grammar) (c : Context) (isTagged : Bool) : Parse TemplateParts :=
  loop (⟨[], []⟩ : TemplateParts) fun parts => do
    match (← get).token with
    | .template raw valid last =>
      unless valid || isTagged do refuse .invalidTemplateEscape
      advance
      let parts := { parts with texts := raw :: parts.texts }
      if last then done parts
      else
        let value ← expression g c.withIn
        resumeTemplate
        more { parts with holes := value :: parts.holes }
    | _ => unexpected

/-- The texts and expressions of a template in turn, a text first and a text last. -/
def interleave : List String → List Expr → Phrase (.list .part) → Phrase (.list .part)
  | text :: texts, hole :: holes, after =>
    interleave texts holes (.cons (.partHole hole) (.cons (.partText text) after))
  | text :: _, [], after => .cons (.partText text) after
  | [], _, after => after

/-- A template without a tag. -/
def templateLiteral (g : Grammar) (c : Context) : Parse Expr := do
  let parts ← templateParts g c false
  return .template (interleave parts.texts parts.holes .nil)

/-! ## Parentheses -/

/-- What stands between parentheses before it is known whether an arrow follows: expressions, last
first, a rest binding, and whether only an arrow function can look like this. -/
structure Cover where
  values : List Expr
  rest : Option Target
  needsArrow : Bool

/-- What stands between parentheses, after the opening one. -/
def cover (g : Grammar) (c : Context) : Parse Cover := do
  if ← eatMark ")" then return ⟨[], none, true⟩
  loop [] fun values => do
    if ← eatMark "..." then
      let rest ← g (.binding c)
      expectMark ")"
      done ⟨values, some rest, true⟩
    else
      let values := (← assignment g c.withIn) :: values
      if ← eatMark "," then
        if ← eatMark ")" then done ⟨values, none, true⟩ else more values
      else
        expectMark ")"
        done ⟨values, none, false⟩

/-- Expressions with commas between them, from a list that is last first. -/
def joinCommas (values : List Expr) : Option Expr :=
  match values.reverse with
  | [] => none
  | first :: others => some (others.foldl (.binary .comma) first)

/-- A cover as a parenthesized expression. -/
def Cover.paren? (cover : Cover) : Option Expr :=
  if cover.needsArrow then none else (joinCommas cover.values).map .paren

/-- A cover as the parameters of an arrow function. -/
def Cover.parameters? (cover : Cover) : Option (Phrase (.list .parameter)) :=
  let last : Phrase (.list .parameter) :=
    match cover.rest with
    | some target => .cons (.parameterRest target) .nil
    | none => .nil
  cover.values.foldl
    (fun after value =>
      match after, Phrase.asParameter value with
      | some ps, some p => some (.cons p ps)
      | _, _ => none)
    (some last)

/-- A parenthesized expression, after its opening parenthesis. -/
def parenthesized (g : Grammar) (c : Context) : Parse Expr := do
  match (← cover g c).paren? with
  | some e => return e
  | none => unexpected

/-! ## Primary expressions -/

/-- Reads the slash at the cursor as the beginning of a regular expression. -/
def regularExpression : Parse Expr := do
  let cursor ← get
  match readRegExp (cursor.here.drop 1) with
  | some (.regExp body flags, rest) =>
    set { cursor with token := .regExp body flags, rest }
    advance
    return .regExp body flags
  | _ => throw .unreadable

/-- A word as a primary expression. -/
def primaryWord (g : Grammar) (c : Context) (text : String) : Parse Expr := do
  match text with
  | "this" => advance; return .this
  | "null" => advance; return .literal .null
  | "true" => advance; return .literal (.boolean true)
  | "false" => advance; return .literal (.boolean false)
  | "function" => advance; functionExpression g false
  | "class" => advance; classExpression g c
  | "async" =>
    let (newline, next) ← peek
    if next == .word "function" false && !newline then
      advance
      advance
      functionExpression g true
    else return .name (← identifier c)
  | _ => return .name (← identifier c)

def primary (g : Grammar) (c : Context) : Parse Expr := do
  match (← get).token with
  | .word text false => primaryWord g c text
  | .word _ true => return .name (← identifier c)
  | .number text legacyOctal => advance; return .literal (.number text legacyOctal)
  | .bigint text => advance; return .literal (.bigint text)
  | .string value spelling => advance; return .literal (.string value spelling)
  | .template _ _ _ => templateLiteral g c
  | .mark "(" => advance; parenthesized g c
  | .mark "[" => advance; arrayLiteral g c
  | .mark "\x7b" => advance; objectLiteral g c
  | .mark "/" => regularExpression
  | .mark "/=" => regularExpression
  | _ => unexpected

/-! ## Accesses, calls and chains -/

/-- An index, after its opening bracket. -/
def index (g : Grammar) (c : Context) : Parse (Phrase .field) := do
  let value ← expression g c.withIn
  expectMark "]"
  return .fieldIndex value

def fieldAfterPoint : Parse (Phrase .field) := do
  match (← get).token with
  | .word text _ => advance; return .fieldName text
  | .privateName name => advance; return .fieldPrivate name
  | _ => unexpected

/-- A link of an optional chain, after its mark. -/
def optionalLink (g : Grammar) (c : Context) : Parse (Phrase .link) := do
  if ← eatMark "(" then return .linkCall (← arguments g c)
  else if ← eatMark "[" then return .linkField (← index g c)
  else return .linkField (← fieldAfterPoint)

/-- The links of an optional chain, after its first mark. -/
def chainLinks (g : Grammar) (c : Context) : Parse (Phrase (.list .link)) := do
  let first ← optionalLink g c
  loop [first] fun links => do
    match (← get).token with
    | .mark "?." => advance; more ((← optionalLink g c) :: links)
    | .mark "." => advance; more (.linkField (← fieldAfterPoint) :: links)
    | .mark "[" => advance; more (.linkField (← index g c) :: links)
    | .mark "(" => advance; more (.linkCall (← arguments g c) :: links)
    | .template _ _ _ => unexpected
    | _ => done (.ofReversed links)

/-- Accesses, tagged templates and, if allowed, calls and an optional chain after an expression. -/
def memberTail (g : Grammar) (c : Context) (callsAllowed : Bool) (start : Expr) : Parse Expr :=
  loop start fun left => do
    match (← get).token with
    | .mark "." =>
      advance
      more (.property (.access left (← fieldAfterPoint)))
    | .mark "[" =>
      advance
      more (.property (.access left (← index g c)))
    | .template _ _ _ =>
      let parts ← templateParts g c true
      more (.tagged left parts.texts.reverse (.ofReversed parts.holes))
    | .mark "(" =>
      if callsAllowed then
        advance
        more (.call left (← arguments g c))
      else done left
    | .mark "?." =>
      if callsAllowed then
        advance
        done (.chain left (← chainLinks g c))
      else unexpected
    | _ => done left

/-- An access to a property of `super`, whose point or bracket is at the cursor. -/
def superProperty (g : Grammar) (c : Context) : Parse Expr := do
  if ← eatMark "[" then return .property (.superAccess (← index g c))
  else
    expectMark "."
    match (← get).token with
    | .word text _ => advance; return .property (.superAccess (.fieldName text))
    | _ => unexpected

/-- What follows the word `new`: `.target`, or a callee and perhaps its arguments. -/
def newRest (g : Grammar) (c : Context) : Parse Expr := do
  if ← eatMark "." then
    expectWord "target"
    return .newTarget
  else
    let callee ← g (.callee c)
    let items ← if ← eatMark "(" then arguments g c else pure .nil
    return .construct callee items

/-- The first part of a callee. -/
def calleeStart (g : Grammar) (c : Context) : Parse Expr := do
  if ← eatWord "new" then newRest g c
  else if ← eatWord "super" then superProperty g c
  else primary g c

/-- The callee of a `new` expression: no call and no optional chain is part of it. -/
def callee (g : Grammar) (c : Context) : Parse Expr := do
  memberTail g c false (← calleeStart g c)

/-- A call or an access after `super`. -/
def superRest (g : Grammar) (c : Context) : Parse Expr := do
  if ← eatMark "(" then return .superCall (← arguments g c)
  else superProperty g c

/-- The first part of an expression with accesses and calls. -/
def leftHandSideStart (g : Grammar) (c : Context) : Parse Expr := do
  if ← eatWord "new" then newRest g c
  else if ← eatWord "super" then superRest g c
  else if ← eatWord "import" then
    expectMark "("
    let source ← assignment g c.withIn
    expectMark ")"
    return .importCall source
  else primary g c

/-- An expression with its accesses and calls. -/
def leftHandSide (g : Grammar) (c : Context) : Parse Expr := do
  memberTail g c true (← leftHandSideStart g c)

/-! ## Operators -/

/-- An expression as the target of an update or a compound assignment. -/
def simpleTarget (e : Expr) : Parse Target := do
  match Phrase.asSimpleTarget e with
  | some target => return target
  | none => refuse .invalidTarget

/-- The increment or decrement after an expression, on the same line. -/
def postfixTail (e : Expr) : Parse Expr := do
  let cursor ← get
  match cursor.token with
  | .mark "++" =>
    if cursor.newline then return e
    else
      let target ← simpleTarget e
      advance
      return .update .postIncrement target
  | .mark "--" =>
    if cursor.newline then return e
    else
      let target ← simpleTarget e
      advance
      return .update .postDecrement target
  | _ => return e

def unaryOp? : Token → Option UnaryOp
  | .word "delete" false => some .delete
  | .word "void" false => some .void
  | .word "typeof" false => some .typeof
  | .mark "+" => some .plus
  | .mark "-" => some .minus
  | .mark "~" => some .complement
  | .mark "!" => some .not
  | _ => none

def unary (g : Grammar) (c : Context) : Parse Expr := do
  let token := (← get).token
  match unaryOp? token with
  | some op =>
    advance
    return .unary op (← g (.unary c))
  | none =>
    match token with
    | .mark "++" =>
      advance
      return .update .preIncrement (← simpleTarget (← g (.unary c)))
    | .mark "--" =>
      advance
      return .update .preDecrement (← simpleTarget (← g (.unary c)))
    | .word "await" false =>
      if c.isAsync then
        advance
        return .await (← g (.unary c))
      else postfixTail (← leftHandSide g c)
    | _ => postfixTail (← leftHandSide g c)

/-- The level of the relational operators. -/
def relationalLevel : Nat := 7

/-- The level of exponentiation, which binds tightest. -/
def powerLevel : Nat := 11

/-- The operator that a token writes between operands, and its level: operators of a higher level
bind more tightly. -/
def binaryOp? (inAllowed : Bool) : Token → Option (BinaryOp × Nat)
  | .word "in" false => if inAllowed then some (.operator "in", relationalLevel) else none
  | .word "instanceof" false => some (.operator "instanceof", relationalLevel)
  | .mark text =>
    match text with
    | "??" => some (.logical .coalesce, 1)
    | "||" => some (.logical .or, 1)
    | "&&" => some (.logical .and, 2)
    | "|" => some (.operator text, 3)
    | "^" => some (.operator text, 4)
    | "&" => some (.operator text, 5)
    | "==" | "!=" | "===" | "!==" => some (.operator text, 6)
    | "<" | ">" | "<=" | ">=" => some (.operator text, relationalLevel)
    | "<<" | ">>" | ">>>" => some (.operator text, 8)
    | "+" | "-" => some (.operator text, 9)
    | "*" | "/" | "%" => some (.operator text, 10)
    | "**" => some (.operator text, powerLevel)
    | _ => none
  | _ => none

/-- Whether an expression is an operator before its operand, which no power can have as its left
side. -/
def isUnary : Expr → Bool
  | .unary _ _ | .await _ => true
  | _ => false

/-- The operators after an operand that bind at least as tightly as a level. All group to the left
but exponentiation. -/
def operandTail (g : Grammar) (c : Context) (level : Nat) (start : Expr) : Parse Expr :=
  loop start fun left => do
    match binaryOp? c.inAllowed (← get).token with
    | some (op, opLevel) =>
      if opLevel < level then done left
      else if opLevel == powerLevel then
        if isUnary left then unexpected
        else
          advance
          more (.binary op left (← g (.operand c powerLevel)))
      else
        advance
        more (.binary op left (← g (.operand c (opLevel + 1))))
    | none => done left

/-- The first operand of operators of a level: a private name can only be tested with `in`. -/
def operandStart (g : Grammar) (c : Context) (level : Nat) : Parse Expr := do
  match (← get).token with
  | .privateName name =>
    if relationalLevel < level || !c.inAllowed then unexpected
    else
      advance
      expectWord "in"
      return .privateIn name (← g (.operand c (relationalLevel + 1)))
  | _ => unary g c

/-- Operands with the operators between them that bind at least as tightly as a level. -/
def operand (g : Grammar) (c : Context) (level : Nat) : Parse Expr := do
  operandTail g c level (← operandStart g c level)

/-- The branches of a conditional expression after its test, if there are any. -/
def conditionalTail (g : Grammar) (c : Context) (test : Expr) : Parse Expr := do
  if ← eatMark "?" then
    let yes ← assignment g c.withIn
    expectMark ":"
    return .conditional test yes (← assignment g c)
  else return test

/-! ## Assignments -/

def assignOp? : Token → Option AssignOp
  | .mark text =>
    match text with
    | "=" => some .plain
    | "&&=" => some (.logical .and)
    | "||=" => some (.logical .or)
    | "??=" => some (.logical .coalesce)
    | "+=" | "-=" | "*=" | "/=" | "%=" | "**=" | "<<=" | ">>=" | ">>>=" | "&=" | "|=" | "^=" =>
      some (.compound text)
    | _ => none
  | _ => none

/-- An assignment to an expression that has been read, if an assignment operator follows it. -/
def assignTail (g : Grammar) (c : Context) (e : Expr) : Parse Expr := do
  match assignOp? (← get).token with
  | none => return e
  | some op =>
    let target := if op == .plain then e.asTarget else Phrase.asSimpleTarget e
    match target with
    | some target =>
      advance
      return .assign op target (← assignment g c)
    | none => refuse .invalidTarget

/-- The operators, branches and assignment after an operand. -/
def assignmentTail (g : Grammar) (c : Context) (start : Expr) : Parse Expr := do
  assignTail g c (← conditionalTail g c (← operandTail g c 1 start))

/-- Accesses, operators, branches and assignment after the beginning of an operand. -/
def fromPrimary (g : Grammar) (c : Context) (start : Expr) : Parse Expr := do
  assignmentTail g c (← postfixTail (← memberTail g c true start))

/-- A `yield` expression, whose word is at the cursor. Its operand is on the same line. -/
def yieldExpression (g : Grammar) (c : Context) : Parse Expr := do
  advance
  let cursor ← get
  if cursor.newline then return .yield false .absent
  else
    match cursor.token with
    | .mark "*" =>
      advance
      return .yield true (.present (← assignment g c))
    | .mark ")" | .mark "]" | .mark "\x7d" | .mark "," | .mark ";" | .mark ":" | .eof =>
      return .yield false .absent
    | .word "in" false => return .yield false .absent
    | _ => return .yield false (.present (← assignment g c))

/-- Whether an arrow is at the cursor, on the same line as the token before it. -/
def atArrow : Parse Bool := do
  let cursor ← get
  return cursor.token == .mark "=>" && !cursor.newline

/-- An arrow function with the given parameters, whose arrow is at the cursor. -/
def arrowRest (g : Grammar) (c : Context) (isAsync : Bool) (ps : Phrase (.list .parameter)) :
    Parse Expr := do
  unless ← atArrow do unexpected
  advance
  return .arrow .anonymous isAsync (.callable ps (← arrowBody g c isAsync))

/-- An expression that begins with a parenthesis. -/
def fromParenthesis (g : Grammar) (c : Context) : Parse Expr := do
  advance
  let cover ← cover g c
  if ← atArrow then
    match cover.parameters? with
    | some ps => arrowRest g c false ps
    | none => refuse .invalidParameters
  else
    match cover.paren? with
    | some e => fromPrimary g c e
    | none => unexpected

/-- The arguments of a call that may turn out to be the parameters of an asynchronous arrow
function: the items, last first, and whether a comma follows the last of them. -/
def coverArguments (g : Grammar) (c : Context) : Parse (List (Phrase .item) × Bool) :=
  loop ([], false) fun (items, afterComma) => do
    if ← eatMark ")" then done (items, afterComma)
    else
      let item ←
        if ← eatMark "..." then pure (.itemSpread (← g (.assignment c.withIn)))
        else pure (.item (← g (.assignment c.withIn)))
      let items := item :: items
      if ← eatMark "," then more (items, true)
      else
        expectMark ")"
        done (items, false)

/-- Arguments, last first, as the parameters of an arrow function. -/
def argumentParameters? (items : List (Phrase .item)) (afterComma : Bool) :
    Option (Phrase (.list .parameter)) :=
  items.foldl
    (fun after item =>
      match after, item with
      | some ps, .item value => (Phrase.asParameter value).map (.cons · ps)
      | some .nil, .itemSpread value =>
        if afterComma then none
        else (Phrase.asBinding value).map fun target => .cons (.parameterRest target) .nil
      | _, _ => none)
    (some .nil)

/-- An argument in which an assignment gives its name to the value. -/
def nameItem : Phrase .item → Phrase .item
  | .item value => .item (Phrase.nameAssigned value)
  | .itemSpread value => .itemSpread (Phrase.nameAssigned value)
  | p => p

/-- A call of a function named `async`, or an asynchronous arrow function with its parameters in
parentheses; the word `async` is at the cursor. -/
def fromAsyncCall (g : Grammar) (c : Context) : Parse Expr := do
  advance
  advance
  let (items, afterComma) ← coverArguments g c
  if ← atArrow then
    match argumentParameters? items afterComma with
    | some ps => arrowRest g c true ps
    | none => refuse .invalidParameters
  else fromPrimary g c (.call (.name "async") (.ofReversed (items.map nameItem)))

/-- An arrow function with a single parameter without parentheses, at the cursor. -/
def bareArrow (g : Grammar) (c : Context) (isAsync : Bool) : Parse Expr := do
  let name ← identifier { c with isAsync := c.isAsync || isAsync }
  arrowRest g c isAsync (.cons (.parameter (.targetName name)) .nil)

/-- An operand with everything after it. -/
def fromOperand (g : Grammar) (c : Context) : Parse Expr := do
  assignmentTail g c (← operandStart g c 1)

/-- An expression that begins with the word `async`. Before `of` it can be the head of a loop. -/
def fromAsync (g : Grammar) (c : Context) : Parse Expr := do
  let (newline, next) ← peek
  match next with
  | .mark "=>" => if newline then fromOperand g c else bareArrow g c false
  | .mark "(" => if newline then fromOperand g c else fromAsyncCall g c
  | .word text _ =>
    if newline || isReserved text then fromOperand g c
    else if text == "of" && (← peekTwice) != .mark "=>" then fromOperand g c
    else
      advance
      bareArrow g c true
  | _ => fromOperand g c

/-- An assignment expression, with no name given to its value. -/
def bareAssignment (g : Grammar) (c : Context) : Parse Expr := do
  match (← get).token with
  | .mark "(" => fromParenthesis g c
  | .word "async" false => fromAsync g c
  | .word text escaped =>
    if c.isGenerator && text == "yield" && !escaped then yieldExpression g c
    else if canBeIdentifier c text then
      match ← peek with
      | (false, .mark "=>") => bareArrow g c false
      | _ => fromOperand g c
    else fromOperand g c
  | _ => fromOperand g c

end ScriptFeatures.Script.Parser
