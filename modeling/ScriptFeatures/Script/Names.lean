import ScriptFeatures.Script.Ast

/-! The names that phrases declare: the names a pattern binds, the lexical declarations of a list of
statements, and the variables that statements declare for the whole function around them. Each
collection is put in front of a list of names found before. -/

namespace ScriptFeatures.Script

/-- A lexically declared name. Plain functions are told apart, since sloppy blocks may declare them
twice. -/
structure LexicalName where
  name : Name
  isPlainFunction : Bool
  deriving DecidableEq, Repr, Inhabited

namespace Phrase

/-- The names that a binding, a parameter or a declarator binds. -/
def boundNames : {c : Category} → Phrase c → List Name → List Name
  | _, nil, found | _, absent, found | _, patternItemHole, found => found
  | _, cons first rest, found => rest.boundNames (first.boundNames found)
  | _, present part, found => part.boundNames found
  | _, targetName n, found => n :: found
  | _, targetPattern p, found => p.boundNames found
  | _, objectPattern properties, found => properties.boundNames found
  | _, arrayPattern items, found => items.boundNames found
  | _, patternProperty _ target _, found | _, patternPropertyRest target, found =>
    target.boundNames found
  | _, patternItem target _, found | _, patternItemRest target, found => target.boundNames found
  | _, parameter target, found | _, parameterDefault target _, found
  | _, parameterRest target, found => target.boundNames found
  | _, declarator target _, found => target.boundNames found
  | _, _, found => found

/-- The lexical declarations of a list of statements, functions among them if `withFunctions`, and
those of the clauses of a `switch` statement. -/
def lexicalNames (withFunctions : Bool) :
    {c : Category} → Phrase c → List LexicalName → List LexicalName
  | _, cons first rest, found =>
    rest.lexicalNames withFunctions (first.lexicalNames withFunctions found)
  | _, variableDeclaration .var _ _, found => found
  | _, variableDeclaration _ first others, found =>
    (others.boundNames (first.boundNames [])).map (⟨·, false⟩) ++ found
  | _, classDeclaration (classBody (.written n) _ _ _), found => ⟨n, false⟩ :: found
  | _, functionDeclaration n kind _, found =>
    if withFunctions then ⟨n, kind == .ordinary⟩ :: found else found
  | _, clause _ statements, found => statements.lexicalNames withFunctions found
  | _, _, found => found

/-- The variables declared with `var` in statements, those nested in other statements included. -/
def variableNames : {c : Category} → Phrase c → List Name → List Name
  | _, cons first rest, found => rest.variableNames (first.variableNames found)
  | _, present part, found => part.variableNames found
  | _, variableDeclaration .var first others, found => others.boundNames (first.boundNames found)
  | _, startVariables .var first others, found => others.boundNames (first.boundNames found)
  | _, headVariable .var binding, found => binding.boundNames found
  | _, block statements, found => statements.variableNames found
  | _, choose _ yes no, found => no.variableNames (yes.variableNames found)
  | _, doWhile body _, found | _, whileLoop _ body, found => body.variableNames found
  | _, forLoop start _ _ body, found => body.variableNames (start.variableNames found)
  | _, forIn head _ body, found | _, forOf _ head _ body, found =>
    body.variableNames (head.variableNames found)
  | _, switch _ clauses, found => clauses.variableNames found
  | _, clause _ statements, found => statements.variableNames found
  | _, labelled _ body, found => body.variableNames found
  | _, tryBlock statements caught finalizer, found =>
    finalizer.variableNames (caught.variableNames (statements.variableNames found))
  | _, handler _ statements, found => statements.variableNames found
  | _, withObject _ body, found => body.variableNames found
  | _, _, found => found

/-- The functions that a list of statements declares itself. -/
def functionNames : {c : Category} → Phrase c → List Name → List Name
  | _, cons first rest, found => rest.functionNames (first.functionNames found)
  | _, functionDeclaration n _ _, found => n :: found
  | _, _, found => found

/-- The private names that class elements declare, each with the kind of method it is, if it is
one, and whether it is static. -/
def privateNames : {c : Category} → Phrase c → List (Name × Option MethodKind × Bool) →
    List (Name × Option MethodKind × Bool)
  | _, cons first rest, found => rest.privateNames (first.privateNames found)
  | _, elementMethod isStatic kind (keyPrivate n) _, found => (n, some kind, isStatic) :: found
  | _, elementField isStatic (keyPrivate n) _, found => (n, none, isStatic) :: found
  | _, _, found => found

/-- How many members of an object literal set its prototype: those written with a colon after the
key `__proto__`. -/
def prototypeCount : {c : Category} → Phrase c → Nat → Nat
  | _, cons first rest, n => rest.prototypeCount (first.prototypeCount n)
  | _, member (keyName k) _, n | _, member (keyString k _) _, n =>
    if k == "__proto__" then n + 1 else n
  | _, _, n => n

end Phrase

end ScriptFeatures.Script
