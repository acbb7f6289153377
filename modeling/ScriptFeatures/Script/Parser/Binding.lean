import ScriptFeatures.Script.Parser.Basic

/-! Keys and binding patterns. -/

namespace ScriptFeatures.Script.Parser

/-- The key of a member of an object literal or pattern, or of a class if `inClass`. -/
def key (g : Grammar) (c : Context) (inClass : Bool) : Parse (Phrase .key) := do
  match (← get).token with
  | .word text _ => advance; return .keyName text
  | .string value spelling => advance; return .keyString value spelling
  | .number text legacyOctal => advance; return .keyNumber text legacyOctal
  | .bigint text => advance; return .keyNumber text false
  | .privateName name =>
    if inClass then
      advance
      return .keyPrivate name
    else unexpected
  | .mark "[" =>
    advance
    let value ← assignment g c.withIn
    expectMark "]"
    return .keyComputed value
  | _ => unexpected

/-- A default after an equals sign; a bare identifier gives it its name. -/
def defaultFor (g : Grammar) (c : Context) (target : Target) :
    Parse (Phrase (.optional .expr)) := do
  let value ← initializer? g c.withIn
  return .ofOption (value.map (Phrase.nameAfter target))

/-- The elements of an array pattern, after its opening bracket. -/
def arrayPatternItems (g : Grammar) (c : Context) : Parse (Phrase (.list .patternItem)) :=
  loop [] fun items => do
    if ← eatMark "]" then done (.ofReversed items)
    else if ← eatMark "," then more (.patternItemHole :: items)
    else if ← eatMark "..." then
      let target ← g (.binding c)
      expectMark "]"
      done (.ofReversed (.patternItemRest target :: items))
    else
      let target ← g (.binding c)
      let default ← defaultFor g c target
      let items := .patternItem target default :: items
      if ← eatMark "," then more items
      else
        expectMark "]"
        done (.ofReversed items)

/-- One property of an object pattern. A key alone is also the name that it binds. -/
def patternProperty (g : Grammar) (c : Context) : Parse (Phrase .patternProperty) := do
  let token := (← get).token
  let key ← key g c false
  if ← eatMark ":" then
    let target ← g (.binding c)
    return .patternProperty key target (← defaultFor g c target)
  else
    match token with
    | .word text _ =>
      if canBeIdentifier c text then
        let target : Target := .targetName text
        return .patternProperty key target (← defaultFor g c target)
      else throw (.unexpected token)
    | _ => unexpected

/-- The properties of an object pattern, after its opening brace. -/
def objectPatternProperties (g : Grammar) (c : Context) :
    Parse (Phrase (.list .patternProperty)) :=
  loop [] fun properties => do
    if ← eatMark "\x7d" then done (.ofReversed properties)
    else if ← eatMark "..." then
      let name ← identifier c
      expectMark "\x7d"
      done (.ofReversed (.patternPropertyRest (.targetName name) :: properties))
    else
      let properties := (← patternProperty g c) :: properties
      if ← eatMark "," then more properties
      else
        expectMark "\x7d"
        done (.ofReversed properties)

/-- A binding: an identifier or a pattern. -/
def binding (g : Grammar) (c : Context) : Parse Target := do
  if ← eatMark "[" then return .targetPattern (.arrayPattern (← arrayPatternItems g c))
  else if ← eatMark "\x7b" then
    return .targetPattern (.objectPattern (← objectPatternProperties g c))
  else return .targetName (← identifier c)

end ScriptFeatures.Script.Parser
