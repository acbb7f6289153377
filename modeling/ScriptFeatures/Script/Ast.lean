/-! The abstract syntax of ECMAScript scripts.

* `Phrase c` holds the phrases of syntactic category `c`: expressions, statements, patterns and
  their parts are one family, so a pass over a script is one recursion and a proof about it one
  induction.
* A name that a function or class takes from its context is stored with it (`Naming.inferred`), so
  no later pass has to look around a definition to know what it is called.
* Parentheses are kept (`Expr.paren`): they decide which expressions are assignment targets.
* What only an early error looks at is kept beside the value: the spelling of a string, a legacy
  octal number, a comma after the last element. -/

namespace ScriptFeatures.Script

/-- An identifier, a property name, a label or a private name without its number sign. -/
abbrev Name := String

/-! ## Leaves -/

/-- How a string literal is spelled. Only a `plain` one can be a directive, and a `legacyOctal` one
is refused in strict code. -/
inductive StringSpelling
  | plain
  | escaped
  | legacyOctal
  deriving DecidableEq, Repr, Inhabited

/-- A literal. Numbers keep their text. -/
inductive Literal
  | null
  | boolean (value : Bool)
  | number (text : String) (legacyOctal : Bool)
  | bigint (text : String)
  | string (value : String) (spelling : StringSpelling)
  deriving DecidableEq, Repr, Inhabited

/-- What a function or class is called: nothing, its own written name, or a name taken from the
binding, property or target it is given to. -/
inductive Naming
  | anonymous
  | written (name : Name)
  | inferred (name : Name)
  deriving DecidableEq, Repr, Inhabited

/-- The four kinds of function definitions. -/
inductive FunctionKind
  | ordinary
  | generator
  | async
  | asyncGenerator
  deriving DecidableEq, Repr, Inhabited

namespace FunctionKind

/-- Whether `yield` is an operator inside. -/
def isGenerator : FunctionKind → Bool
  | generator | asyncGenerator => true
  | _ => false

/-- Whether `await` is an operator inside. -/
def isAsync : FunctionKind → Bool
  | async | asyncGenerator => true
  | _ => false

/-- The kind with the two given properties. -/
def of (isAsync isGenerator : Bool) : FunctionKind :=
  match isAsync, isGenerator with
  | false, false => ordinary
  | false, true => generator
  | true, false => async
  | true, true => asyncGenerator

end FunctionKind

/-- What a method definition makes. -/
inductive MethodKind
  | function (kind : FunctionKind)
  | getter
  | setter
  deriving DecidableEq, Repr, Inhabited

/-- The keyword of a variable declaration. -/
inductive VariableKind
  | var
  | lets
  | const
  deriving DecidableEq, Repr, Inhabited

/-- Operators before one operand. -/
inductive UnaryOp
  | delete
  | void
  | typeof
  | plus
  | minus
  | complement
  | not
  deriving DecidableEq, Repr, Inhabited

/-- Increment and decrement, before or after their target. -/
inductive UpdateOp
  | preIncrement
  | preDecrement
  | postIncrement
  | postDecrement
  deriving DecidableEq, Repr, Inhabited

inductive LogicalOp
  | and
  | or
  | coalesce
  deriving DecidableEq, Repr, Inhabited

/-- Operators between two operands. The arithmetic, bitwise, relational and equality operators are
told apart by their text. -/
inductive BinaryOp
  | operator (text : String)
  | logical (op : LogicalOp)
  | comma
  deriving DecidableEq, Repr, Inhabited

/-- Assignment operators: plain, logical, or the text of a compound one. -/
inductive AssignOp
  | plain
  | logical (op : LogicalOp)
  | compound (text : String)
  deriving DecidableEq, Repr, Inhabited

/-! ## Phrases -/

/-- The syntactic categories. Lists and optional parts are categories too. -/
inductive Category
  | expr
  | item
  | member
  | key
  | access
  | field
  | link
  | part
  | target
  | pattern
  | patternProperty
  | patternItem
  | parameter
  | body
  | callable
  | classBody
  | element
  | statement
  | declarator
  | start
  | head
  | clause
  | handler
  | list (c : Category)
  | optional (c : Category)
  deriving DecidableEq, Repr, Inhabited

/-- The phrases of each category. -/
inductive Phrase : Category → Type
  /- Lists and optional parts -/
  | nil {c : Category} : Phrase (.list c)
  | cons {c : Category} (first : Phrase c) (rest : Phrase (.list c)) : Phrase (.list c)
  | absent {c : Category} : Phrase (.optional c)
  | present {c : Category} (part : Phrase c) : Phrase (.optional c)
  /- Expressions -/
  | this : Phrase .expr
  | name (n : Name) : Phrase .expr
  | literal (value : Literal) : Phrase .expr
  | regExp (body flags : String) : Phrase .expr
  | array (items : Phrase (.list .item)) (trailingComma : Bool) : Phrase .expr
  | object (members : Phrase (.list .member)) (trailingComma : Bool) : Phrase .expr
  | function (naming : Naming) (kind : FunctionKind) (f : Phrase .callable) : Phrase .expr
  | arrow (naming : Naming) (isAsync : Bool) (f : Phrase .callable) : Phrase .expr
  | classExpr (c : Phrase .classBody) : Phrase .expr
  | template (parts : Phrase (.list .part)) : Phrase .expr
  | tagged (tag : Phrase .expr) (texts : List String) (holes : Phrase (.list .expr)) : Phrase .expr
  | property (a : Phrase .access) : Phrase .expr
  | call (callee : Phrase .expr) (arguments : Phrase (.list .item)) : Phrase .expr
  | superCall (arguments : Phrase (.list .item)) : Phrase .expr
  | importCall (source : Phrase .expr) : Phrase .expr
  | construct (callee : Phrase .expr) (arguments : Phrase (.list .item)) : Phrase .expr
  | chain (start : Phrase .expr) (links : Phrase (.list .link)) : Phrase .expr
  | newTarget : Phrase .expr
  | assign (op : AssignOp) (target : Phrase .target) (value : Phrase .expr) : Phrase .expr
  | unary (op : UnaryOp) (operand : Phrase .expr) : Phrase .expr
  | update (op : UpdateOp) (target : Phrase .target) : Phrase .expr
  | binary (op : BinaryOp) (left right : Phrase .expr) : Phrase .expr
  | privateIn (n : Name) (right : Phrase .expr) : Phrase .expr
  | conditional (test yes no : Phrase .expr) : Phrase .expr
  | await (operand : Phrase .expr) : Phrase .expr
  | yield (delegate : Bool) (operand : Phrase (.optional .expr)) : Phrase .expr
  | paren (inner : Phrase .expr) : Phrase .expr
  /- Elements of array literals, and arguments; only arrays have holes -/
  | itemHole : Phrase .item
  | item (value : Phrase .expr) : Phrase .item
  | itemSpread (value : Phrase .expr) : Phrase .item
  /- Members of object literals; a cover default is `{n = value}`, which only a pattern can hold -/
  | member (key : Phrase .key) (value : Phrase .expr) : Phrase .member
  | shorthand (n : Name) : Phrase .member
  | coverDefault (n : Name) (value : Phrase .expr) : Phrase .member
  | memberMethod (kind : MethodKind) (key : Phrase .key) (f : Phrase .callable) : Phrase .member
  | memberSpread (value : Phrase .expr) : Phrase .member
  /- Keys of object members, class elements and object patterns -/
  | keyName (n : Name) : Phrase .key
  | keyString (value : String) (spelling : StringSpelling) : Phrase .key
  | keyNumber (text : String) (legacyOctal : Bool) : Phrase .key
  | keyComputed (value : Phrase .expr) : Phrase .key
  | keyPrivate (n : Name) : Phrase .key
  /- Property accesses -/
  | access (object : Phrase .expr) (field : Phrase .field) : Phrase .access
  | superAccess (field : Phrase .field) : Phrase .access
  | fieldName (n : Name) : Phrase .field
  | fieldPrivate (n : Name) : Phrase .field
  | fieldIndex (value : Phrase .expr) : Phrase .field
  /- Steps of an optional chain -/
  | linkField (f : Phrase .field) : Phrase .link
  | linkCall (arguments : Phrase (.list .item)) : Phrase .link
  /- Pieces of a template -/
  | partText (raw : String) : Phrase .part
  | partHole (value : Phrase .expr) : Phrase .part
  /- Assignment targets; a binding is a name or a pattern of bindings -/
  | targetName (n : Name) : Phrase .target
  | targetAccess (a : Phrase .access) : Phrase .target
  | targetPattern (p : Phrase .pattern) : Phrase .target
  | targetParen (inner : Phrase .target) : Phrase .target
  /- Destructuring patterns -/
  | objectPattern (properties : Phrase (.list .patternProperty)) : Phrase .pattern
  | arrayPattern (items : Phrase (.list .patternItem)) : Phrase .pattern
  | patternProperty (key : Phrase .key) (target : Phrase .target)
      (default : Phrase (.optional .expr)) : Phrase .patternProperty
  | patternPropertyRest (target : Phrase .target) : Phrase .patternProperty
  | patternItemHole : Phrase .patternItem
  | patternItem (target : Phrase .target) (default : Phrase (.optional .expr)) : Phrase .patternItem
  | patternItemRest (target : Phrase .target) : Phrase .patternItem
  /- Functions -/
  | parameter (target : Phrase .target) : Phrase .parameter
  | parameterDefault (target : Phrase .target) (default : Phrase .expr) : Phrase .parameter
  | parameterRest (target : Phrase .target) : Phrase .parameter
  | bodyBlock (strict : Bool) (statements : Phrase (.list .statement)) : Phrase .body
  | bodyValue (value : Phrase .expr) : Phrase .body
  | callable (parameters : Phrase (.list .parameter)) (body : Phrase .body) : Phrase .callable
  /- Classes; the constructor stands apart from the other elements -/
  | classBody (naming : Naming) (superclass : Phrase (.optional .expr))
      (initializer : Phrase (.optional .callable)) (elements : Phrase (.list .element)) :
      Phrase .classBody
  | elementMethod (isStatic : Bool) (kind : MethodKind) (key : Phrase .key) (f : Phrase .callable) :
      Phrase .element
  | elementField (isStatic : Bool) (key : Phrase .key) (value : Phrase (.optional .expr)) :
      Phrase .element
  | staticBlock (statements : Phrase (.list .statement)) : Phrase .element
  /- Statements and declarations -/
  | block (statements : Phrase (.list .statement)) : Phrase .statement
  | empty : Phrase .statement
  | expression (value : Phrase .expr) : Phrase .statement
  | debugger : Phrase .statement
  | choose (test : Phrase .expr) (yes : Phrase .statement) (no : Phrase (.optional .statement)) :
      Phrase .statement
  | doWhile (body : Phrase .statement) (test : Phrase .expr) : Phrase .statement
  | whileLoop (test : Phrase .expr) (body : Phrase .statement) : Phrase .statement
  | forLoop (start : Phrase .start) (test update : Phrase (.optional .expr))
      (body : Phrase .statement) : Phrase .statement
  | forIn (head : Phrase .head) (object : Phrase .expr) (body : Phrase .statement) :
      Phrase .statement
  | forOf (isAwait : Bool) (head : Phrase .head) (iterable : Phrase .expr)
      (body : Phrase .statement) : Phrase .statement
  | switch (subject : Phrase .expr) (clauses : Phrase (.list .clause)) : Phrase .statement
  | continueLoop (label : Option Name) : Phrase .statement
  | breakOut (label : Option Name) : Phrase .statement
  | returnValue (value : Phrase (.optional .expr)) : Phrase .statement
  | labelled (label : Name) (body : Phrase .statement) : Phrase .statement
  | throwValue (value : Phrase .expr) : Phrase .statement
  | tryBlock (statements : Phrase (.list .statement)) (handler : Phrase (.optional .handler))
      (finalizer : Phrase (.list .statement)) : Phrase .statement
  | withObject (object : Phrase .expr) (body : Phrase .statement) : Phrase .statement
  | variableDeclaration (kind : VariableKind) (first : Phrase .declarator)
      (more : Phrase (.list .declarator)) : Phrase .statement
  | functionDeclaration (name : Name) (kind : FunctionKind) (f : Phrase .callable) :
      Phrase .statement
  | classDeclaration (c : Phrase .classBody) : Phrase .statement
  /- Parts of statements -/
  | declarator (target : Phrase .target) (value : Phrase (.optional .expr)) : Phrase .declarator
  | startNothing : Phrase .start
  | startExpr (value : Phrase .expr) : Phrase .start
  | startVariables (kind : VariableKind) (first : Phrase .declarator)
      (more : Phrase (.list .declarator)) : Phrase .start
  | headTarget (t : Phrase .target) : Phrase .head
  | headVariable (kind : VariableKind) (binding : Phrase .target) : Phrase .head
  | clause (test : Phrase (.optional .expr)) (statements : Phrase (.list .statement)) :
      Phrase .clause
  | handler (parameter : Phrase (.optional .target)) (statements : Phrase (.list .statement)) :
      Phrase .handler

abbrev Expr := Phrase .expr

/-- Assignment targets and bindings. -/
abbrev Target := Phrase .target

abbrev Statement := Phrase .statement

namespace Phrase

instance : Inhabited Expr := ⟨.this⟩
instance : Inhabited Statement := ⟨.empty⟩
instance : Inhabited Target := ⟨.targetName ""⟩

/-- The list phrase of the given phrases, which come last first. -/
def ofReversed {c : Category} (ps : List (Phrase c)) : Phrase (.list c) :=
  ps.foldl (fun rest p => cons p rest) nil

/-- The optional phrase of an option. -/
def ofOption {c : Category} : Option (Phrase c) → Phrase (.optional c)
  | none => absent
  | some p => present p

end Phrase

/-- A whole script: its statements, and whether they begin with the strict directive. -/
structure Program where
  strict : Bool
  statements : List Statement

end ScriptFeatures.Script
