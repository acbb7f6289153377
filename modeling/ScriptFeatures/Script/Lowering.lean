import ScriptFeatures.Script.Ast
import ScriptFeatures.Tree.Growth

/-! Lowering: the ESTree shape of a script.

`Phrase.lower` puts what a phrase adds to the tree in front of a list that holds what came before
it, so the list is last first; `Program.growths` turns it round at the end. Parentheses, private
names, labels, `break` targets and the blocks of a `try` statement add nothing of their own. -/

namespace ScriptFeatures.Script

open ScriptFeatures.Tree

/-- The node of a name, if there is one. -/
def Naming.lower : Naming → List Growth → List Growth
  | .anonymous, before => before
  | .written _, before | .inferred _, before => .node .identifier [] :: before

/-- The node of a name that is written at the definition itself. -/
def Naming.lowerWritten : Naming → List Growth → List Growth
  | .written _, before => .node .identifier [] :: before
  | _, before => before

def BinaryOp.nodeKind : BinaryOp → NodeKind
  | .operator _ => .binaryExpression
  | .logical _ => .logicalExpression
  | .comma => .sequenceExpression

/-- A node whose children are given last first. -/
def branch (kind : NodeKind) (children : List Growth) : Growth :=
  .node kind children.reverse

namespace Phrase

/-- What a phrase adds to the tree, in front of what came before it. -/
def lower : {c : Category} → Phrase c → List Growth → List Growth
  | _, nil, before => before
  | _, cons first rest, before => rest.lower (first.lower before)
  | _, absent, before => before
  | _, present part, before => part.lower before
  -- expressions
  | _, this, before => .node .thisExpression [] :: before
  | _, name _, before => .node .identifier [] :: before
  | _, literal _, before | _, regExp _ _, before => .node .literal [] :: before
  | _, array items _, before => branch .arrayExpression (items.lower []) :: before
  | _, object members _, before => branch .objectExpression (members.lower []) :: before
  | _, function naming _ f, before =>
    branch .functionExpression (f.lower (naming.lower [])) :: before
  | _, arrow naming _ f, before =>
    branch .arrowFunctionExpression (f.lower (naming.lower [])) :: before
  | _, classExpr c, before => branch .classExpression (c.lower []) :: before
  | _, template parts, before => branch .templateLiteral (parts.lower []) :: before
  | _, tagged tag _ holes, before =>
    branch .taggedTemplateExpression (holes.lower (tag.lower [])) :: before
  | _, property a, before => branch .memberExpression (a.lower []) :: before
  | _, call callee arguments, before =>
    branch .callExpression (arguments.lower (callee.lower [])) :: before
  | _, superCall arguments, before =>
    branch .callExpression (arguments.lower [.leaf .superReference]) :: before
  | _, importCall source, before => branch .importExpression (source.lower []) :: before
  | _, construct callee arguments, before =>
    branch .newExpression (arguments.lower (callee.lower [])) :: before
  | _, chain start links, before =>
    branch .chainExpression (links.lower (start.lower [])) :: before
  | _, newTarget, before => .node .metaProperty [] :: before
  | _, assign _ target value, before =>
    branch .assignmentExpression (value.lower (target.lower [])) :: before
  | _, unary _ operand, before => branch .unaryExpression (operand.lower []) :: before
  | _, update _ target, before => branch .updateExpression (target.lower []) :: before
  | _, binary op left right, before =>
    branch op.nodeKind (right.lower (left.lower [])) :: before
  | _, privateIn _ right, before => branch .binaryExpression (right.lower []) :: before
  | _, conditional test yes no, before =>
    branch .conditionalExpression (no.lower (yes.lower (test.lower []))) :: before
  | _, await operand, before => branch .awaitExpression (operand.lower []) :: before
  | _, yield _ operand, before => branch .yieldExpression (operand.lower []) :: before
  | _, paren inner, before => inner.lower before
  -- elements, arguments and members
  | _, itemHole, before => before
  | _, item value, before => value.lower before
  | _, itemSpread value, before => branch .spreadElement (value.lower []) :: before
  | _, member key value, before => branch .property (value.lower (key.lower [])) :: before
  | _, shorthand _, before =>
    .node .property [.leaf .identifier, .node .identifier []] :: before
  | _, coverDefault _ value, before =>
    branch .property (value.lower [.node .identifier [], .leaf .identifier]) :: before
  | _, memberMethod _ key f, before =>
    branch .property (f.lower (key.lower [.leaf .functionExpression])) :: before
  | _, memberSpread value, before => branch .spreadElement (value.lower []) :: before
  -- keys and accesses
  | _, keyName _, before | _, keyString _ _, before => .node .identifier [] :: before
  | _, keyNumber _ _, before => .node .literal [] :: before
  | _, keyComputed value, before => value.lower before
  | _, keyPrivate _, before => before
  | _, access owner field, before => field.lower (owner.lower before)
  | _, superAccess field, before => field.lower (.leaf .superReference :: before)
  | _, fieldName _, before => .node .identifier [] :: before
  | _, fieldPrivate _, before => before
  | _, fieldIndex value, before => value.lower before
  | _, linkField f, before => f.lower before
  | _, linkCall arguments, before => arguments.lower before
  | _, partText _, before => .node .templateElement [] :: before
  | _, partHole value, before => value.lower before
  -- targets and patterns
  | _, targetName _, before => .node .identifier [] :: before
  | _, targetAccess a, before => a.lower before
  | _, targetPattern p, before => p.lower before
  | _, targetParen inner, before => inner.lower before
  | _, objectPattern properties, before => branch .objectPattern (properties.lower []) :: before
  | _, arrayPattern items, before => branch .arrayPattern (items.lower []) :: before
  | _, patternProperty key target default, before =>
    default.lower (target.lower (key.lower before))
  | _, patternPropertyRest target, before => target.lower before
  | _, patternItemHole, before => before
  | _, patternItem target default, before => default.lower (target.lower before)
  | _, patternItemRest target, before => target.lower before
  -- functions and classes
  | _, parameter target, before => target.lower before
  | _, parameterDefault target default, before =>
    branch .assignmentPattern (default.lower (target.lower [])) :: before
  | _, parameterRest target, before => branch .restElement (target.lower []) :: before
  | _, bodyBlock _ statements, before => branch .blockStatement (statements.lower []) :: before
  | _, bodyValue value, before =>
    .node .blockStatement [branch .returnStatement (value.lower [])] :: before
  | _, callable parameters body, before => body.lower (parameters.lower before)
  | _, classBody naming superclass initializer elements, before =>
    let head := superclass.lower (naming.lower (.leaf .classBody :: before))
    match initializer with
    | absent => elements.lower head
    | present f => elements.lower (f.lower (naming.lowerWritten head))
  | _, elementMethod _ _ key f, before =>
    branch .methodDefinition (f.lower (key.lower [.leaf .functionExpression])) :: before
  | _, elementField _ key value, before =>
    branch .propertyDefinition (value.lower (key.lower [])) :: before
  | _, staticBlock statements, before =>
    .node .staticBlock [branch .blockStatement (statements.lower [])] :: before
  -- statements
  | _, block statements, before => branch .blockStatement (statements.lower []) :: before
  | _, empty, before => .node .emptyStatement [] :: before
  | _, expression value, before => branch .expressionStatement (value.lower []) :: before
  | _, debugger, before => .node .expressionStatement [] :: before
  | _, choose test yes no, before =>
    branch .ifStatement (no.lower (yes.lower (test.lower []))) :: before
  | _, doWhile body test, before =>
    branch .doWhileStatement (test.lower (body.lower [])) :: before
  | _, whileLoop test body, before =>
    branch .whileStatement (body.lower (test.lower [])) :: before
  | _, forLoop start test step body, before =>
    branch .forStatement (body.lower (step.lower (test.lower (start.lower [])))) :: before
  | _, forIn head subject body, before =>
    branch .forInStatement (body.lower (subject.lower (head.lower []))) :: before
  | _, forOf _ head subject body, before =>
    branch .forOfStatement (body.lower (subject.lower (head.lower []))) :: before
  | _, switch subject clauses, before =>
    branch .switchStatement (clauses.lower (subject.lower [])) :: before
  | _, continueLoop _, before => .node .continueStatement [] :: before
  | _, breakOut _, before => .node .breakStatement [] :: before
  | _, returnValue value, before => branch .returnStatement (value.lower []) :: before
  | _, labelled _ body, before => branch .labeledStatement (body.lower []) :: before
  | _, throwValue value, before => branch .throwStatement (value.lower []) :: before
  | _, tryBlock statements caught finalizer, before =>
    branch .tryStatement (finalizer.lower (caught.lower (statements.lower []))) :: before
  | _, withObject subject body, before =>
    branch .withStatement (body.lower (subject.lower [])) :: before
  | _, variableDeclaration _ first more, before =>
    branch .variableDeclaration (more.lower (first.lower [])) :: before
  | _, functionDeclaration _ _ f, before =>
    branch .functionDeclaration (f.lower [.node .identifier []]) :: before
  | _, classDeclaration c, before => branch .classDeclaration (c.lower []) :: before
  -- parts of statements
  | _, declarator target value, before =>
    branch .variableDeclarator (value.lower (target.lower [])) :: before
  | _, startNothing, before => before
  | _, startExpr value, before => value.lower before
  | _, startVariables _ first more, before =>
    branch .variableDeclaration (more.lower (first.lower [])) :: before
  | _, headTarget t, before => t.lower before
  | _, headVariable _ binding, before => .loopVariable (binding.lower []).reverse :: before
  | _, clause test statements, before =>
    branch .switchCase (statements.lower (test.lower [])) :: before
  | _, handler binding statements, before =>
    branch .catchClause (statements.lower (binding.lower [])) :: before

end Phrase

/-- What a list of top-level statements adds below the root. -/
def growthsOf (statements : List Statement) : List Growth :=
  (statements.foldl (fun before s => s.lower before) []).reverse

def Program.growths (s : Program) : List Growth :=
  growthsOf s.statements

/-- The tree of a script, unless a path in it would hold more than `limit` nodes. -/
def Program.tree? (limit : Nat) (s : Program) : Option SyntaxTree :=
  SyntaxTree.grow? .program limit s.growths

end ScriptFeatures.Script
