import ScriptFeatures.Script.Error
import ScriptFeatures.Script.Names

/-! The rules beyond the grammar that depend on what is around a place: declared names, labels,
strict code, private names, and what functions, methods and classes allow inside.

`Phrase.check` goes through a script with a `Surroundings` and reports the first broken rule it
meets. Rules that only need the text at hand are part of the parser. -/

namespace ScriptFeatures.Script

/-- What is special about the parameters of the function about to be checked: whether their names
must differ in any case, and which operators and words they cannot use. -/
structure ParameterRules where
  unique : Bool
  yieldBanned : Bool
  awaitBanned : Bool
  awaitReserved : Bool

/-- What a place in a script can use. Each label comes with whether it labels a loop. -/
structure Surroundings where
  strict : Bool
  labels : List (Name × Bool)
  inLoop : Bool
  inSwitch : Bool
  superProperty : Bool
  superCall : Bool
  newTarget : Bool
  argumentsBanned : Bool
  yieldBanned : Bool
  awaitBanned : Bool
  awaitReserved : Bool
  privateNames : List Name
  parameters : ParameterRules

namespace Surroundings

def top (strict : Bool) : Surroundings where
  strict
  labels := []
  inLoop := false
  inSwitch := false
  superProperty := false
  superCall := false
  newTarget := false
  argumentsBanned := false
  yieldBanned := false
  awaitBanned := false
  awaitReserved := false
  privateNames := []
  parameters := ⟨false, false, false, false⟩

def inFunction (s : Surroundings) (kind : FunctionKind) : Surroundings :=
  { top s.strict with
    newTarget := true
    privateNames := s.privateNames
    parameters := ⟨false, kind.isGenerator, kind.isAsync, false⟩ }

def inMethod (s : Surroundings) (kind : MethodKind) : Surroundings :=
  let kind :=
    match kind with
    | .function kind => kind
    | _ => .ordinary
  let s := s.inFunction kind
  { s with superProperty := true, parameters := { s.parameters with unique := true } }

/-- The inside of an arrow function, which shares what its surroundings mean by `this`. -/
def inArrow (s : Surroundings) (isAsync : Bool) : Surroundings :=
  { s with
    labels := []
    inLoop := false
    inSwitch := false
    parameters := ⟨true, true, true, isAsync⟩ }

def inField (s : Surroundings) : Surroundings :=
  { s.inFunction .ordinary with superProperty := true, argumentsBanned := true }

def inStaticBlock (s : Surroundings) : Surroundings :=
  { s.inField with awaitBanned := true, awaitReserved := true }

def loopBody (s : Surroundings) : Surroundings :=
  { s with inLoop := true }

/-! ## Names -/

/-- Checks a word that is used as a label or an identifier. -/
def word (s : Surroundings) (n : Name) : Except EarlyError Unit := do
  if s.strict && strictReservedWords.contains n then throw (.reservedName n)
  if s.awaitReserved && n == "await" then throw (.reservedName n)

/-- Checks an identifier that is read. -/
def reference (s : Surroundings) (n : Name) : Except EarlyError Unit := do
  s.word n
  if s.argumentsBanned && n == "arguments" then throw .misplacedArguments

/-- Checks an identifier that is bound or assigned to. -/
def target (s : Surroundings) (n : Name) : Except EarlyError Unit := do
  s.reference n
  if s.strict && (n == "eval" || n == "arguments") then throw (.reservedName n)

/-- Checks the name of a function or class. -/
def naming (s : Surroundings) : Naming → Except EarlyError Unit
  | .written n => s.target n
  | _ => pure ()

/-- Checks a private name that is used. -/
def privateName (s : Surroundings) (n : Name) : Except EarlyError Unit :=
  if s.privateNames.contains n then pure () else throw (.undeclaredPrivateName n)

end Surroundings

/-! ## Declared names -/

/-- The first name of a list that occurs again in it. -/
def repeated? : List Name → Option Name
  | [] => none
  | n :: rest => if rest.contains n then some n else repeated? rest

/-- Checks that no name is bound twice. -/
def checkDistinct (names : List Name) : Except EarlyError Unit :=
  match repeated? names with
  | some n => throw (.duplicateDeclaration n)
  | none => pure ()

/-- Checks that lexical declarations do not repeat a name. In sloppy code, plain functions may
repeat each other's names. -/
def checkLexical (strict : Bool) : List LexicalName → Except EarlyError Unit
  | [] => pure ()
  | l :: rest => do
    if rest.any fun m => m.name == l.name &&
        (strict || !(m.isPlainFunction && l.isPlainFunction)) then
      throw (.duplicateDeclaration l.name)
    checkLexical strict rest

/-- Checks that two lists have no name in common. -/
def checkDisjoint (names others : List Name) : Except EarlyError Unit :=
  match names.find? others.contains with
  | some n => throw (.duplicateDeclaration n)
  | none => pure ()

/-- Checks the declarations of a block, or of the clauses of a `switch` statement. -/
def checkBlockNames (strict : Bool) {c : Category} (statements : Phrase c) :
    Except EarlyError Unit := do
  let lexical := statements.lexicalNames true []
  unless lexical.isEmpty do
    checkLexical strict lexical
    checkDisjoint (lexical.map (·.name)) (statements.variableNames [])

/-- Checks the declarations of a function, a script or a static block, where functions are declared
like variables. -/
def checkTopNames {c : Category} (statements : Phrase c) : Except EarlyError Unit := do
  let lexical := statements.lexicalNames false []
  unless lexical.isEmpty do
    checkLexical true lexical
    checkDisjoint (lexical.map (·.name)) (statements.functionNames (statements.variableNames []))

/-- Checks the names that the head of a loop declares lexically. -/
def checkHeadNames (kind : VariableKind) (names : List Name) (body : Statement) :
    Except EarlyError Unit := do
  unless kind == .var do
    checkDistinct names
    if names.contains "let" then throw (.reservedName "let")
    checkDisjoint names (body.variableNames [])

/-- Checks the names that a `let` or `const` declaration binds. -/
def checkLexicalKind (kind : VariableKind) (names : List Name) : Except EarlyError Unit := do
  unless kind == .var do
    if names.contains "let" then throw (.reservedName "let")

/-- Checks the private names of a class: none is declared twice, but by a getter and a setter. -/
def checkPrivateNames : List (Name × Option MethodKind × Bool) → Except EarlyError Unit
  | [] => pure ()
  | (n, kind, isStatic) :: rest => do
    let clashes := rest.any fun (m, other, otherStatic) =>
      m == n &&
        !(isStatic == otherStatic &&
          ((kind == some .getter && other == some .setter) ||
            (kind == some .setter && other == some .getter)))
    if clashes then throw (.duplicatePrivateName n)
    let third := rest.countP fun (m, _, _) => m == n
    if 1 < third then throw (.duplicatePrivateName n)
    checkPrivateNames rest

/-! ## Shapes -/

namespace Phrase

/-- Whether the body of a function begins with the strict directive. -/
def isStrict : {c : Category} → Phrase c → Bool
  | _, callable _ body => body.isStrict
  | _, bodyBlock strict _ => strict
  | _, _ => false

/-- Whether parameters are all bare identifiers. -/
def areSimple : {c : Category} → Phrase c → Bool
  | _, nil => true
  | _, cons first rest => first.areSimple && rest.areSimple
  | _, parameter (targetName _) => true
  | _, _ => false

/-- The lexical declarations of the body of a function. -/
def bodyLexicalNames : Phrase .body → List Name
  | bodyBlock _ statements => (statements.lexicalNames false []).map (·.name)
  | bodyValue _ => []

def isLoop : {c : Category} → Phrase c → Bool
  | _, doWhile _ _ | _, whileLoop _ _ | _, forLoop _ _ _ _ | _, forIn _ _ _
  | _, forOf _ _ _ _ => true
  | _, labelled _ body => body.isLoop
  | _, _ => false

/-- Whether the last link of a chain names a private field. -/
def endsPrivate : {c : Category} → Phrase c → Bool
  | _, cons link nil => link.endsPrivate
  | _, cons _ rest => rest.endsPrivate
  | _, linkField (fieldPrivate _) => true
  | _, _ => false

/-- Checks the operand of `delete`: not a private field, and in strict code not an identifier. -/
def checkDelete (strict : Bool) : {c : Category} → Phrase c → Except EarlyError Unit
  | _, paren inner => inner.checkDelete strict
  | _, name _ => if strict then throw .strictDelete else pure ()
  | _, property (access _ (fieldPrivate _)) => throw .privateDelete
  | _, chain _ links => if links.endsPrivate then throw .privateDelete else pure ()
  | _, _ => pure ()

/-- Whether an expression is an operator `??` that is not in parentheses. -/
def isCoalesce : Expr → Bool
  | binary (.logical .coalesce) _ _ => true
  | _ => false

/-- Whether an expression is an operator `&&` or `||` that is not in parentheses. -/
def isAndOr : Expr → Bool
  | binary (.logical .and) _ _ | binary (.logical .or) _ _ => true
  | _ => false

/-- Checks that `??` is not mixed with `&&` or `||` without parentheses. -/
def checkMixed (op : BinaryOp) (left right : Expr) : Except EarlyError Unit :=
  match op with
  | .logical .coalesce =>
    if isAndOr left || isAndOr right then throw .mixedCoalesce else pure ()
  | .logical _ =>
    if isCoalesce left || isCoalesce right then throw .mixedCoalesce else pure ()
  | _ => pure ()

end Phrase

/-- Checks the spelling of a number or a string, which strict code restricts. -/
def checkOctal (strict legacyOctal : Bool) : Except EarlyError Unit :=
  if strict && legacyOctal then throw .strictOctal else pure ()

/-- Checks a `break` or a `continue` statement. -/
def checkJump (s : Surroundings) (isContinue : Bool) (label : Option Name) :
    Except EarlyError Unit := do
  match label with
  | none => unless s.inLoop || (s.inSwitch && !isContinue) do throw .misplacedJump
  | some l =>
    match s.labels.lookup l with
    | none => throw (.undeclaredLabel l)
    | some isLoop => if isContinue && !isLoop then throw .misplacedJump

/-- Checks parameters against each other and against the body of their function. -/
def checkParameters (s : Surroundings) (ps : Phrase (.list .parameter)) (body : Phrase .body) :
    Except EarlyError Unit := do
  let names := ps.boundNames []
  let simple := ps.areSimple
  if body.isStrict && !simple then throw .strictDirective
  if s.strict || !simple || s.parameters.unique then
    match repeated? names with
    | some n => throw (.duplicateParameter n)
    | none => pure ()
  checkDisjoint names body.bodyLexicalNames

/-! ## The check -/

namespace Phrase

/-- Checks a phrase in its surroundings. -/
def check : {c : Category} → Phrase c → Surroundings → Except EarlyError Unit
  | _, nil, _ | _, absent, _ => pure ()
  | _, cons first rest, s => do
    first.check s
    rest.check s
  | _, present part, s => part.check s
  -- expressions
  | _, this, _ | _, regExp _ _, _ => pure ()
  | _, name n, s => s.reference n
  | _, literal (.number _ legacyOctal), s => checkOctal s.strict legacyOctal
  | _, literal (.string _ spelling), s => checkOctal s.strict (spelling == .legacyOctal)
  | _, literal _, _ => pure ()
  | _, array items _, s => items.check s
  | _, object members _, s => do
    if 1 < members.prototypeCount 0 then throw .duplicatePrototype
    members.check s
  | _, function naming kind f, s => do
    let named := { s with strict := s.strict || f.isStrict }
    named.naming naming
    f.check (s.inFunction kind)
  | _, arrow _ isAsync f, s => f.check (s.inArrow isAsync)
  | _, classExpr c, s => c.check s
  | _, template parts, s => parts.check s
  | _, tagged tag _ holes, s => do
    tag.check s
    holes.check s
  | _, property a, s => a.check s
  | _, call callee arguments, s => do
    callee.check s
    arguments.check s
  | _, superCall arguments, s => do
    unless s.superCall do throw .misplacedSuper
    arguments.check s
  | _, importCall source, s => source.check s
  | _, construct callee arguments, s => do
    callee.check s
    arguments.check s
  | _, chain start links, s => do
    start.check s
    links.check s
  | _, newTarget, s => if s.newTarget then pure () else throw .misplacedNewTarget
  | _, assign _ target value, s => do
    target.check s
    value.check s
  | _, unary op operand, s => do
    if op == .delete then operand.checkDelete s.strict
    operand.check s
  | _, update _ target, s => target.check s
  | _, binary op left right, s => do
    checkMixed op left right
    left.check s
    right.check s
  | _, privateIn n right, s => do
    s.privateName n
    right.check s
  | _, conditional test yes no, s => do
    test.check s
    yes.check s
    no.check s
  | _, await operand, s => do
    if s.awaitBanned then throw .misplacedAwait
    operand.check s
  | _, yield _ operand, s => do
    if s.yieldBanned then throw .misplacedYield
    operand.check s
  | _, paren inner, s => inner.check s
  -- elements, arguments and members
  | _, itemHole, _ => pure ()
  | _, item value, s | _, itemSpread value, s | _, memberSpread value, s => value.check s
  | _, member key value, s => do
    key.check s
    value.check s
  | _, shorthand n, s => s.reference n
  | _, coverDefault _ _, _ => throw .misplacedCoverDefault
  | _, memberMethod kind key f, s => do
    key.check s
    f.check (s.inMethod kind)
  -- keys, accesses and pieces
  | _, keyName _, _ | _, keyPrivate _, _ => pure ()
  | _, keyString _ spelling, s => checkOctal s.strict (spelling == .legacyOctal)
  | _, keyNumber _ legacyOctal, s => checkOctal s.strict legacyOctal
  | _, keyComputed value, s => value.check s
  | _, access owner field, s => do
    owner.check s
    field.check s
  | _, superAccess field, s => do
    unless s.superProperty do throw .misplacedSuper
    field.check s
  | _, fieldName _, _ => pure ()
  | _, fieldPrivate n, s => s.privateName n
  | _, fieldIndex value, s => value.check s
  | _, linkField f, s => f.check s
  | _, linkCall arguments, s => arguments.check s
  | _, partText _, _ => pure ()
  | _, partHole value, s => value.check s
  -- targets and patterns
  | _, targetName n, s => s.target n
  | _, targetAccess a, s => a.check s
  | _, targetPattern p, s => p.check s
  | _, targetParen inner, s => inner.check s
  | _, objectPattern properties, s => properties.check s
  | _, arrayPattern items, s => items.check s
  | _, patternProperty key target default, s => do
    key.check s
    target.check s
    default.check s
  | _, patternItemHole, _ => pure ()
  | _, patternItem target default, s => do
    target.check s
    default.check s
  | _, patternPropertyRest target, s | _, patternItemRest target, s => target.check s
  -- functions
  | _, parameter target, s | _, parameterRest target, s => target.check s
  | _, parameterDefault target default, s => do
    target.check s
    default.check s
  | _, bodyBlock _ statements, s => do
    checkTopNames statements
    statements.check s
  | _, bodyValue value, s => value.check s
  | _, callable ps body, s => do
    let s := { s with strict := s.strict || body.isStrict }
    checkParameters s ps body
    let rules := s.parameters
    ps.check
      { s with
        yieldBanned := s.yieldBanned || rules.yieldBanned
        awaitBanned := s.awaitBanned || rules.awaitBanned
        awaitReserved := s.awaitReserved || rules.awaitReserved }
    body.check { s with yieldBanned := false, awaitBanned := false }
  -- classes
  | _, classBody naming superclass initializer elements, s => do
    let s := { s with strict := true }
    s.naming naming
    superclass.check s
    let declared := elements.privateNames []
    checkPrivateNames declared
    let s := { s with privateNames := declared.map (·.1) ++ s.privateNames }
    let derived :=
      match superclass with
      | present _ => true
      | absent => false
    initializer.check { s.inMethod (.function .ordinary) with superCall := derived }
    elements.check s
  | _, elementMethod _ kind key f, s => do
    key.check s
    f.check (s.inMethod kind)
  | _, elementField _ key value, s => do
    key.check s
    value.check s.inField
  | _, staticBlock statements, s => do
    checkTopNames statements
    statements.check s.inStaticBlock
  -- statements
  | _, block statements, s => do
    checkBlockNames s.strict statements
    statements.check s
  | _, empty, _ | _, debugger, _ => pure ()
  | _, expression value, s | _, throwValue value, s => value.check s
  | _, choose test yes no, s => do
    test.check s
    yes.check s
    no.check s
  | _, doWhile body test, s => do
    body.check s.loopBody
    test.check s
  | _, whileLoop test body, s => do
    test.check s
    body.check s.loopBody
  | _, forLoop start test step body, s => do
    match start with
    | startVariables kind first others =>
      checkHeadNames kind (others.boundNames (first.boundNames [])) body
    | _ => pure ()
    start.check s
    test.check s
    step.check s
    body.check s.loopBody
  | _, forIn head subject body, s => do
    match head with
    | headVariable kind binding => checkHeadNames kind (binding.boundNames []) body
    | headTarget _ => pure ()
    head.check s
    subject.check s
    body.check s.loopBody
  | _, forOf _ head subject body, s => do
    match head with
    | headVariable kind binding => checkHeadNames kind (binding.boundNames []) body
    | headTarget _ => pure ()
    head.check s
    subject.check s
    body.check s.loopBody
  | _, switch subject clauses, s => do
    subject.check s
    checkBlockNames s.strict clauses
    clauses.check { s with inSwitch := true }
  | _, continueLoop label, s => checkJump s true label
  | _, breakOut label, s => checkJump s false label
  | _, returnValue value, s => value.check s
  | _, labelled label body, s => do
    s.word label
    if (s.labels.lookup label).isSome then throw (.duplicateLabel label)
    body.check { s with labels := (label, body.isLoop) :: s.labels }
  | _, tryBlock statements caught finalizer, s => do
    checkBlockNames s.strict statements
    statements.check s
    caught.check s
    checkBlockNames s.strict finalizer
    finalizer.check s
  | _, withObject subject body, s => do
    if s.strict then throw .strictWith
    subject.check s
    body.check s
  | _, variableDeclaration kind first others, s => do
    checkLexicalKind kind (others.boundNames (first.boundNames []))
    first.check s
    others.check s
  | _, functionDeclaration n kind f, s => do
    let named := { s with strict := s.strict || f.isStrict }
    named.target n
    f.check (s.inFunction kind)
  | _, classDeclaration c, s => c.check s
  -- parts of statements
  | _, declarator target value, s => do
    target.check s
    value.check s
  | _, startNothing, _ => pure ()
  | _, startExpr value, s => value.check s
  | _, startVariables _ first others, s => do
    first.check s
    others.check s
  | _, headTarget t, s => t.check s
  | _, headVariable _ binding, s => binding.check s
  | _, clause test statements, s => do
    test.check s
    statements.check s
  | _, handler binding statements, s => do
    let names := binding.boundNames []
    checkDistinct names
    checkDisjoint names ((statements.lexicalNames true []).map (·.name))
    match binding with
    | present (targetPattern _) => checkDisjoint names (statements.variableNames [])
    | _ => pure ()
    checkBlockNames s.strict statements
    binding.check s
    statements.check s

end Phrase

def Program.check (script : Program) : Except EarlyError Unit := do
  let statements := Phrase.ofReversed script.statements.reverse
  checkTopNames statements
  statements.check (.top script.strict)

end ScriptFeatures.Script
