import ScriptFeatures.Script.Ast

/-! Expressions read again as assignment targets, bindings and parameters, and the names that
anonymous functions and classes take from their context. -/

namespace ScriptFeatures.Script

/-- The category that a category of literals becomes when it is read as a target. -/
def Category.asTarget : Category → Category
  | .expr => .target
  | .item => .patternItem
  | .member => .patternProperty
  | .list c => .list c.asTarget
  | c => c

/-- Whether an assignment operator gives its target's name to the value. -/
def AssignOp.givesName : AssignOp → Bool
  | .plain | .logical _ => true
  | .compound _ => false

namespace Phrase

/-! ## Names from the context -/

/-- An anonymous function or class, in parentheses or not, takes the name `n`; any other phrase
stays as it is. -/
def nameAs (n : Name) : {c : Category} → Phrase c → Phrase c
  | _, function .anonymous kind f => function (.inferred n) kind f
  | _, arrow .anonymous isAsync f => arrow (.inferred n) isAsync f
  | _, classExpr (classBody .anonymous superclass initializer elements) =>
    classExpr (classBody (.inferred n) superclass initializer elements)
  | _, paren inner => paren (inner.nameAs n)
  | _, p => p

/-- A value takes the name of the target it is given to, if that is a bare identifier. -/
def nameAfter : Target → Expr → Expr
  | targetName n, value => value.nameAs n
  | _, value => value

/-- An assignment to a bare identifier gives its name to the value. -/
def nameAssigned : Expr → Expr
  | assign op target value =>
    if op.givesName then assign op target (nameAfter target value) else assign op target value
  | e => e

/-- A member of an object literal gives its key to the value, unless the key is a number, computed
or `__proto__`. -/
def nameAfterKey : Phrase .key → Expr → Expr
  | keyName n, value => if n == "__proto__" then value else value.nameAs n
  | keyString n _, value => if n == "__proto__" then value else value.nameAs n
  | _, value => value

/-- A class field gives its key to the value, unless the key is a number or computed. -/
def nameAfterFieldKey : Phrase .key → Expr → Expr
  | keyName n, value | keyString n _, value | keyPrivate n, value => value.nameAs n
  | _, value => value

/-! ## Targets -/

/-- Whether a target is a name or a property access, in parentheses or not. -/
def isSimple : {c : Category} → Phrase c → Bool
  | _, targetName _ | _, targetAccess _ => true
  | _, targetParen inner => inner.isSimple
  | _, _ => false

/-- Whether a rest element stands only at the end, and no comma follows it. -/
def restFits (trailingComma : Bool) : {c : Category} → Phrase c → Bool
  | _, cons (patternItemRest _) rest => match rest with
    | nil => !trailingComma
    | _ => false
  | _, cons (patternPropertyRest _) rest => match rest with
    | nil => !trailingComma
    | _ => false
  | _, cons _ rest => rest.restFits trailingComma
  | _, _ => true

/-- An expression read as an assignment target, and its parts as parts of a pattern. An assignment
inside is a target with a default. -/
def asTarget : {c : Category} → Phrase c → Option (Phrase c.asTarget)
  | _, name n => some (targetName n)
  | _, property a => some (targetAccess a)
  | _, paren inner =>
    match inner.asTarget with
    | some t => if t.isSimple then some (targetParen t) else none
    | none => none
  | _, array items trailingComma =>
    match items.asTarget with
    | some p => if p.restFits trailingComma then some (targetPattern (arrayPattern p)) else none
    | none => none
  | _, object members trailingComma =>
    match members.asTarget with
    | some p => if p.restFits trailingComma then some (targetPattern (objectPattern p)) else none
    | none => none
  | _, itemHole => some patternItemHole
  | _, item (assign .plain target value) => some (patternItem target (present value))
  | _, item value => value.asTarget.map (patternItem · absent)
  | _, itemSpread value => value.asTarget.map patternItemRest
  | _, member key (assign .plain target value) =>
    some (patternProperty key target (present value))
  | _, member key value => value.asTarget.map (patternProperty key · absent)
  | _, shorthand n => some (patternProperty (keyName n) (targetName n) absent)
  | _, coverDefault n value =>
    some (patternProperty (keyName n) (targetName n) (present value))
  | _, memberSpread value =>
    match value.asTarget with
    | some t => if t.isSimple then some (patternPropertyRest t) else none
    | none => none
  | _, nil => some nil
  | _, cons first rest =>
    match first.asTarget, rest.asTarget with
    | some p, some ps => some (cons p ps)
    | _, _ => none
  | _, _ => none

/-- Whether a target is a binding: nothing in it is a property access or in parentheses. -/
def isBinding : {c : Category} → Phrase c → Bool
  | _, targetName _ => true
  | _, targetPattern (objectPattern properties) => properties.isBinding
  | _, targetPattern (arrayPattern items) => items.isBinding
  | _, patternProperty _ target _ | _, patternPropertyRest target => target.isBinding
  | _, patternItemHole => true
  | _, patternItem target _ | _, patternItemRest target => target.isBinding
  | _, nil => true
  | _, cons first rest => first.isBinding && rest.isBinding
  | _, _ => false

/-- An expression read as a simple target, which a compound assignment or an update needs. -/
def asSimpleTarget (e : Expr) : Option Target :=
  e.asTarget.filter (·.isSimple)

/-- An expression read as a binding. -/
def asBinding (e : Expr) : Option Target :=
  e.asTarget.filter (·.isBinding)

/-- An expression read as a parameter of an arrow function. -/
def asParameter : Expr → Option (Phrase .parameter)
  | assign .plain target value =>
    if target.isBinding then some (parameterDefault target value) else none
  | e => (asBinding e).map parameter

end Phrase

end ScriptFeatures.Script
