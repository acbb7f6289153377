/-! The kinds of syntax tree nodes, in the order in which columns and reports list them. -/

namespace ScriptFeatures.Tree

/-- A node kind, labelled with its ESTree name. -/
inductive NodeKind
  | program
  | expressionStatement
  | blockStatement
  | emptyStatement
  | variableDeclaration
  | variableDeclarator
  | ifStatement
  | doWhileStatement
  | whileStatement
  | forStatement
  | forInStatement
  | forOfStatement
  | switchStatement
  | switchCase
  | continueStatement
  | breakStatement
  | returnStatement
  | labeledStatement
  | throwStatement
  | tryStatement
  | catchClause
  | withStatement
  | functionDeclaration
  | classDeclaration
  | thisExpression
  | identifier
  | literal
  | arrayExpression
  | objectExpression
  | spreadElement
  | functionExpression
  | arrowFunctionExpression
  | classExpression
  | templateLiteral
  | memberExpression
  | newExpression
  | callExpression
  | importExpression
  | chainExpression
  | taggedTemplateExpression
  | metaProperty
  | assignmentExpression
  | unaryExpression
  | updateExpression
  | binaryExpression
  | logicalExpression
  | sequenceExpression
  | conditionalExpression
  | awaitExpression
  | yieldExpression
  | superReference
  | property
  | templateElement
  | classBody
  | methodDefinition
  | propertyDefinition
  | staticBlock
  | objectPattern
  | arrayPattern
  | restElement
  | assignmentPattern
  deriving DecidableEq, Repr, Inhabited

namespace NodeKind

def label : NodeKind → String
  | program => "Program"
  | expressionStatement => "ExpressionStatement"
  | blockStatement => "BlockStatement"
  | emptyStatement => "EmptyStatement"
  | variableDeclaration => "VariableDeclaration"
  | variableDeclarator => "VariableDeclarator"
  | ifStatement => "IfStatement"
  | doWhileStatement => "DoWhileStatement"
  | whileStatement => "WhileStatement"
  | forStatement => "ForStatement"
  | forInStatement => "ForInStatement"
  | forOfStatement => "ForOfStatement"
  | switchStatement => "SwitchStatement"
  | switchCase => "SwitchCase"
  | continueStatement => "ContinueStatement"
  | breakStatement => "BreakStatement"
  | returnStatement => "ReturnStatement"
  | labeledStatement => "LabeledStatement"
  | throwStatement => "ThrowStatement"
  | tryStatement => "TryStatement"
  | catchClause => "CatchClause"
  | withStatement => "WithStatement"
  | functionDeclaration => "FunctionDeclaration"
  | classDeclaration => "ClassDeclaration"
  | thisExpression => "ThisExpression"
  | identifier => "Identifier"
  | literal => "Literal"
  | arrayExpression => "ArrayExpression"
  | objectExpression => "ObjectExpression"
  | spreadElement => "SpreadElement"
  | functionExpression => "FunctionExpression"
  | arrowFunctionExpression => "ArrowFunctionExpression"
  | classExpression => "ClassExpression"
  | templateLiteral => "TemplateLiteral"
  | memberExpression => "MemberExpression"
  | newExpression => "NewExpression"
  | callExpression => "CallExpression"
  | importExpression => "ImportExpression"
  | chainExpression => "ChainExpression"
  | taggedTemplateExpression => "TaggedTemplateExpression"
  | metaProperty => "MetaProperty"
  | assignmentExpression => "AssignmentExpression"
  | unaryExpression => "UnaryExpression"
  | updateExpression => "UpdateExpression"
  | binaryExpression => "BinaryExpression"
  | logicalExpression => "LogicalExpression"
  | sequenceExpression => "SequenceExpression"
  | conditionalExpression => "ConditionalExpression"
  | awaitExpression => "AwaitExpression"
  | yieldExpression => "YieldExpression"
  | superReference => "Super"
  | property => "Property"
  | templateElement => "TemplateElement"
  | classBody => "ClassBody"
  | methodDefinition => "MethodDefinition"
  | propertyDefinition => "PropertyDefinition"
  | staticBlock => "StaticBlock"
  | objectPattern => "ObjectPattern"
  | arrayPattern => "ArrayPattern"
  | restElement => "RestElement"
  | assignmentPattern => "AssignmentPattern"

def all : List NodeKind :=
  [.program, .expressionStatement, .blockStatement, .emptyStatement, .variableDeclaration,
   .variableDeclarator, .ifStatement, .doWhileStatement, .whileStatement, .forStatement,
   .forInStatement, .forOfStatement, .switchStatement, .switchCase, .continueStatement,
   .breakStatement, .returnStatement, .labeledStatement, .throwStatement, .tryStatement,
   .catchClause, .withStatement, .functionDeclaration, .classDeclaration, .thisExpression,
   .identifier, .literal, .arrayExpression, .objectExpression, .spreadElement, .functionExpression,
   .arrowFunctionExpression, .classExpression, .templateLiteral, .memberExpression, .newExpression,
   .callExpression, .importExpression, .chainExpression, .taggedTemplateExpression, .metaProperty,
   .assignmentExpression, .unaryExpression, .updateExpression, .binaryExpression,
   .logicalExpression, .sequenceExpression, .conditionalExpression, .awaitExpression,
   .yieldExpression, .superReference, .property, .templateElement, .classBody, .methodDefinition,
   .propertyDefinition, .staticBlock, .objectPattern, .arrayPattern, .restElement,
   .assignmentPattern]

def rank (k : NodeKind) : Nat :=
  all.idxOf k

def ofLabel? (s : String) : Option NodeKind :=
  all.find? (·.label == s)

end NodeKind

end ScriptFeatures.Tree
