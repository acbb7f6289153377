import ScriptFeatures.Script.Parser.Function

/-! Classes. -/

namespace ScriptFeatures.Script.Parser

/-- Whether a key is a given name, written as an identifier or a string. -/
def isKeyNamed (name : Name) : Phrase .key → Bool
  | .keyName n | .keyString n _ => n == name
  | _ => false

/-- What a class holds: its constructor, once it has been read, and its elements, last first. -/
structure ClassParts where
  initializer : Option (Phrase .callable)
  elements : List (Phrase .element)

/-- The value and the end of a field. -/
def fieldRest (g : Grammar) (isStatic : Bool) (key : Phrase .key) : Parse (Phrase .element) := do
  if isKeyNamed "constructor" key || (isStatic && isKeyNamed "prototype" key) then
    refuse .invalidClassKey
  let value ← initializer? g ⟨true, false, false, false⟩
  endStatement
  return .elementField isStatic key (.ofOption (value.map (Phrase.nameAfterFieldKey key)))

/-- One method or field. A method named `constructor` that is not static is the constructor, of
which there is at most one, and which is no special method. -/
def classMember (g : Grammar) (c : Context) (isStatic : Bool) (parts : ClassParts) :
    Parse ClassParts := do
  let announced ← methodAnnounced
  let key ← key g c true
  match key with
  | .keyPrivate "constructor" => refuse .invalidClassKey
  | _ =>
    let isMethod ← atMark "("
    if announced.isNone && !isMethod then
      return { parts with elements := (← fieldRest g isStatic key) :: parts.elements }
    else
      let kind := announced.getD (.function .ordinary)
      if !isStatic && isKeyNamed "constructor" key then
        unless announced.isNone && parts.initializer.isNone do refuse .invalidConstructor
        return { parts with initializer := some (← callable g .ordinary) }
      else
        if isStatic && isKeyNamed "prototype" key then refuse .invalidClassKey
        let f ← methodCallable g kind
        return { parts with elements := .elementMethod isStatic kind key f :: parts.elements }

/-- The elements of a class, after its opening brace. -/
def classParts (g : Grammar) (c : Context) : Parse ClassParts :=
  loop (⟨none, []⟩ : ClassParts) fun parts => do
    if ← eatMark "\x7d" then done parts
    else if ← eatMark ";" then more parts
    else if ← atWord "static" then
      if (← peek).2.followsStatic then
        advance
        if ← eatMark "\x7b" then
          let (statements, _) ← statementsUntil g ⟨true, false, true, false⟩ (.mark "\x7d")
          more { parts with elements := .staticBlock (.ofReversed statements) :: parts.elements }
        else more (← classMember g c true parts)
      else more (← classMember g c false parts)
    else more (← classMember g c false parts)

/-- The heritage and the elements of a class with a given name. -/
def classRest (g : Grammar) (c : Context) (naming : Naming) : Parse (Phrase .classBody) := do
  let superclass ←
    if ← eatWord "extends" then pure (some (← g (.leftHandSide c))) else pure none
  expectMark "\x7b"
  let parts ← classParts g c
  return .classBody naming (.ofOption superclass) (.ofOption parts.initializer)
    (.ofReversed parts.elements)

def classExpression (g : Grammar) (c : Context) : Parse Expr := do
  let anonymous := (← atMark "\x7b") || (← atWord "extends")
  let naming ← if anonymous then pure .anonymous else pure (.written (← identifier c))
  return .classExpr (← classRest g c naming)

def classDeclaration (g : Grammar) (c : Context) : Parse Statement := do
  let name ← identifier c
  return .classDeclaration (← classRest g c (.written name))

end ScriptFeatures.Script.Parser
