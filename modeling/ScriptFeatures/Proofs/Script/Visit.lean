import ScriptFeatures.Proofs.Script.Shape
import ScriptFeatures.Proofs.Tree.Branch

/-! Visiting a script. `Phrase.visit` goes through a phrase with one planter, whose path it pushes
to and pops from at every node, and it asks for the kind of the current node where a name or a
variable may have been entered already. Lowering does neither, and both come to the same:

* `Visit.Keeps`: the path is the same before and after (`Phrase.keeps_visit`), by one case for each
  kind of phrase.
* `Visit.Plants`: below nodes of a kind, a visit plants what a list of growths has more than another
  one. The visit of a phrase plants what it lowers to (`Phrase.plants_visit`). -/

namespace ScriptFeatures.Script

open ScriptFeatures.Tree

/-- A visit: what it makes of the planter, or none where it breaks off. -/
abbrev Visit : Type := Planter → Option Planter

namespace Visit

/-- Nothing to visit. -/
def skip : Visit := some

/-- A childless node that is not entered. -/
def leaf (kind : NodeKind) : Visit :=
  fun p => some (p.leaf kind)

/-- A node that is entered, unless the path with it would hold more than `limit` nodes. -/
def node (limit : Nat) (kind : NodeKind) (inside : Visit) : Visit := fun p =>
  if limit ≤ p.path.size then none else (inside (p.enter kind)).map Planter.leave

/-- A node that is entered only where the current node is not of its kind already. -/
def nodeOnce (limit : Nat) (kind : NodeKind) (inside : Visit) : Visit := fun p =>
  if p.tree.kind? p.current = some kind then inside p else node limit kind inside p

/-- An identifier has its node, or is in it. -/
def identifier (limit : Nat) : Visit :=
  nodeOnce limit .identifier skip

/-- A declared variable has its declarator, or is in it. -/
def declared (limit : Nat) (inside : Visit) : Visit :=
  nodeOnce limit .variableDeclarator inside

/-- The variable of a loop head, in the two nodes that are entered for it. -/
def loopVariable (limit : Nat) (inside : Visit) : Visit := fun p =>
  if limit ≤ p.path.size + 1 then none
  else
    (inside ((p.enter .variableDeclaration).enter .variableDeclarator)).map fun q =>
      q.leave.leave

end Visit

/-- The visit of a name, if there is one. -/
def Naming.visit (limit : Nat) : Naming → Visit
  | .anonymous => .skip
  | .written _ | .inferred _ => .identifier limit

/-- The visit of a name that is written at the definition itself. -/
def Naming.visitWritten (limit : Nat) : Naming → Visit
  | .written _ => .identifier limit
  | .anonymous | .inferred _ => .skip

namespace Phrase

open Visit (skip leaf node identifier loopVariable)

/-- The visit of a phrase. -/
def visit (limit : Nat) : {c : Category} → Phrase c → Visit
  | _, nil => skip
  | _, cons first rest => first.visit limit >=> rest.visit limit
  | _, absent => skip
  | _, present part => part.visit limit
  -- expressions
  | _, this => node limit .thisExpression skip
  | _, name _ => identifier limit
  | _, literal _ | _, regExp _ _ => node limit .literal skip
  | _, array items _ => node limit .arrayExpression (items.visit limit)
  | _, object members _ => node limit .objectExpression (members.visit limit)
  | _, function naming _ f =>
    node limit .functionExpression (naming.visit limit >=> f.visit limit)
  | _, arrow naming _ f =>
    node limit .arrowFunctionExpression (naming.visit limit >=> f.visit limit)
  | _, classExpr c => node limit .classExpression (c.visit limit)
  | _, template parts => node limit .templateLiteral (parts.visit limit)
  | _, tagged tag _ holes =>
    node limit .taggedTemplateExpression (tag.visit limit >=> holes.visit limit)
  | _, property a => node limit .memberExpression (a.visit limit)
  | _, call callee arguments =>
    node limit .callExpression (callee.visit limit >=> arguments.visit limit)
  | _, superCall arguments =>
    node limit .callExpression (leaf .superReference >=> arguments.visit limit)
  | _, importCall source => node limit .importExpression (source.visit limit)
  | _, construct callee arguments =>
    node limit .newExpression (callee.visit limit >=> arguments.visit limit)
  | _, chain start links =>
    node limit .chainExpression (start.visit limit >=> links.visit limit)
  | _, newTarget => node limit .metaProperty skip
  | _, assign _ target value =>
    node limit .assignmentExpression (target.visit limit >=> value.visit limit)
  | _, unary _ operand => node limit .unaryExpression (operand.visit limit)
  | _, update _ target => node limit .updateExpression (target.visit limit)
  | _, binary op left right =>
    node limit op.nodeKind (left.visit limit >=> right.visit limit)
  | _, privateIn _ right => node limit .binaryExpression (right.visit limit)
  | _, conditional test yes no =>
    node limit .conditionalExpression
      (test.visit limit >=> yes.visit limit >=> no.visit limit)
  | _, await operand => node limit .awaitExpression (operand.visit limit)
  | _, yield _ operand => node limit .yieldExpression (operand.visit limit)
  | _, paren inner => inner.visit limit
  -- elements, arguments and members
  | _, itemHole => skip
  | _, item value => value.visit limit
  | _, itemSpread value => node limit .spreadElement (value.visit limit)
  | _, member key value => node limit .property (key.visit limit >=> value.visit limit)
  | _, shorthand _ => node limit .property (leaf .identifier >=> identifier limit)
  | _, coverDefault _ value =>
    node limit .property (leaf .identifier >=> identifier limit >=> value.visit limit)
  | _, memberMethod _ key f =>
    node limit .property (leaf .functionExpression >=> key.visit limit >=> f.visit limit)
  | _, memberSpread value => node limit .spreadElement (value.visit limit)
  -- keys and accesses; the identifier of a name is visited inside the node of the name
  | _, keyName _ | _, keyString _ _ => node limit .identifier (identifier limit)
  | _, keyNumber _ _ => node limit .literal skip
  | _, keyComputed value => value.visit limit
  | _, keyPrivate _ => skip
  | _, access owner field => owner.visit limit >=> field.visit limit
  | _, superAccess field => leaf .superReference >=> field.visit limit
  | _, fieldName _ => node limit .identifier (identifier limit)
  | _, fieldPrivate _ => skip
  | _, fieldIndex value => value.visit limit
  | _, linkField f => f.visit limit
  | _, linkCall arguments => arguments.visit limit
  | _, partText _ => node limit .templateElement skip
  | _, partHole value => value.visit limit
  -- targets and patterns
  | _, targetName _ => identifier limit
  | _, targetAccess a => a.visit limit
  | _, targetPattern p => p.visit limit
  | _, targetParen inner => inner.visit limit
  | _, objectPattern properties => node limit .objectPattern (properties.visit limit)
  | _, arrayPattern items => node limit .arrayPattern (items.visit limit)
  | _, patternProperty key target default =>
    key.visit limit >=> target.visit limit >=> default.visit limit
  | _, patternPropertyRest target => target.visit limit
  | _, patternItemHole => skip
  | _, patternItem target default => target.visit limit >=> default.visit limit
  | _, patternItemRest target => target.visit limit
  -- functions and classes
  | _, parameter target => target.visit limit
  | _, parameterDefault target default =>
    node limit .assignmentPattern (target.visit limit >=> default.visit limit)
  | _, parameterRest target => node limit .restElement (target.visit limit)
  | _, bodyBlock _ statements => node limit .blockStatement (statements.visit limit)
  | _, bodyValue value =>
    node limit .blockStatement (node limit .returnStatement (value.visit limit))
  | _, callable parameters body => parameters.visit limit >=> body.visit limit
  | _, classBody naming superclass initializer elements =>
    let head := leaf .classBody >=> naming.visit limit >=> superclass.visit limit
    match initializer with
    | absent => head >=> elements.visit limit
    | present f =>
      head >=> naming.visitWritten limit >=> f.visit limit >=> elements.visit limit
  | _, elementMethod _ _ key f =>
    node limit .methodDefinition
      (leaf .functionExpression >=> key.visit limit >=> f.visit limit)
  | _, elementField _ key value =>
    node limit .propertyDefinition (key.visit limit >=> value.visit limit)
  | _, staticBlock statements =>
    node limit .staticBlock (node limit .blockStatement (statements.visit limit))
  -- statements
  | _, block statements => node limit .blockStatement (statements.visit limit)
  | _, empty => node limit .emptyStatement skip
  | _, expression value => node limit .expressionStatement (value.visit limit)
  | _, debugger => node limit .expressionStatement skip
  | _, choose test yes no =>
    node limit .ifStatement (test.visit limit >=> yes.visit limit >=> no.visit limit)
  | _, doWhile body test =>
    node limit .doWhileStatement (body.visit limit >=> test.visit limit)
  | _, whileLoop test body =>
    node limit .whileStatement (test.visit limit >=> body.visit limit)
  | _, forLoop start test step body =>
    node limit .forStatement
      (start.visit limit >=> test.visit limit >=> step.visit limit >=> body.visit limit)
  | _, forIn head subject body =>
    node limit .forInStatement
      (head.visit limit >=> subject.visit limit >=> body.visit limit)
  | _, forOf _ head subject body =>
    node limit .forOfStatement
      (head.visit limit >=> subject.visit limit >=> body.visit limit)
  | _, switch subject clauses =>
    node limit .switchStatement (subject.visit limit >=> clauses.visit limit)
  | _, continueLoop _ => node limit .continueStatement skip
  | _, breakOut _ => node limit .breakStatement skip
  | _, returnValue value => node limit .returnStatement (value.visit limit)
  | _, labelled _ body => node limit .labeledStatement (body.visit limit)
  | _, throwValue value => node limit .throwStatement (value.visit limit)
  | _, tryBlock statements caught finalizer =>
    node limit .tryStatement
      (statements.visit limit >=> caught.visit limit >=> finalizer.visit limit)
  | _, withObject subject body =>
    node limit .withStatement (subject.visit limit >=> body.visit limit)
  | _, variableDeclaration _ first more =>
    node limit .variableDeclaration (first.visit limit >=> more.visit limit)
  | _, functionDeclaration _ _ f =>
    node limit .functionDeclaration (identifier limit >=> f.visit limit)
  | _, classDeclaration c => node limit .classDeclaration (c.visit limit)
  -- parts of statements
  | _, declarator target value => .declared limit (target.visit limit >=> value.visit limit)
  | _, startNothing => skip
  | _, startExpr value => value.visit limit
  | _, startVariables _ first more =>
    node limit .variableDeclaration (first.visit limit >=> more.visit limit)
  | _, headTarget t => t.visit limit
  | _, headVariable .var binding => loopVariable limit (.declared limit (binding.visit limit))
  | _, headVariable .lets binding | _, headVariable .const binding =>
    loopVariable limit (binding.visit limit)
  | _, clause test statements =>
    node limit .switchCase (test.visit limit >=> statements.visit limit)
  | _, handler binding statements =>
    node limit .catchClause (binding.visit limit >=> statements.visit limit)

end Phrase

/-! ## The path -/

namespace Visit

/-- A visit that does not break off leaves the path as it was. -/
def Keeps (v : Visit) : Prop :=
  ∀ p q : Planter, v p = some q → q.path = p.path

namespace Keeps

variable {limit : Nat} {v w inside : Visit}

theorem skip : Keeps skip := by
  rintro p _ ⟨⟩
  rfl

theorem leaf (kind : NodeKind) : Keeps (leaf kind) := by
  rintro p _ ⟨⟩
  rfl

theorem andThen (hv : v.Keeps) (hw : w.Keeps) : Keeps (v >=> w) := by
  intro p q h
  obtain ⟨r, hr, hq⟩ := Option.bind_eq_some_iff.mp h
  exact (hw r q hq).trans (hv p r hr)

theorem node {kind : NodeKind} (h : inside.Keeps) : Keeps (node limit kind inside) := by
  intro p q hq
  rw [Visit.node] at hq
  split at hq
  · exact nomatch hq
  · obtain ⟨r, hr, rfl⟩ := Option.map_eq_some_iff.mp hq
    rw [Planter.path_leave, h _ r hr, Planter.path_enter, Array.pop_push]

theorem nodeOnce {kind : NodeKind} (h : inside.Keeps) : Keeps (nodeOnce limit kind inside) := by
  intro p q hq
  rw [Visit.nodeOnce] at hq
  split at hq
  · exact h p q hq
  · exact h.node p q hq

theorem identifier : Keeps (identifier limit) :=
  .nodeOnce .skip

/-- Two nodes are entered and both are left. -/
theorem loopVariable (h : inside.Keeps) : Keeps (loopVariable limit inside) := by
  intro p q hq
  rw [Visit.loopVariable] at hq
  split at hq
  · exact nomatch hq
  · obtain ⟨r, hr, rfl⟩ := Option.map_eq_some_iff.mp hq
    rw [Planter.path_leave, Planter.path_leave, h _ r hr, Planter.path_enter, Array.pop_push,
      Planter.path_enter, Array.pop_push]

theorem naming : ∀ n : Naming, Keeps (n.visit limit)
  | .anonymous => .skip
  | .written _ | .inferred _ => .identifier

theorem namingWritten : ∀ n : Naming, Keeps (n.visitWritten limit)
  | .written _ => .identifier
  | .anonymous | .inferred _ => .skip

end Keeps

end Visit

namespace Phrase

open Visit (Keeps)

/-- The path is the same before and after the visit of a phrase. The cases are those of `visit`,
gathered by how they are put together. -/
theorem keeps_visit (limit : Nat) : ∀ {c : Category} (p : Phrase c), Keeps (p.visit limit)
  -- nothing, or what is visited without a node of its own
  | _, nil | _, absent | _, itemHole | _, keyPrivate _ | _, fieldPrivate _ | _, patternItemHole
  | _, startNothing => .skip
  | _, present p | _, paren p | _, item p | _, keyComputed p | _, fieldIndex p | _, linkField p
  | _, linkCall p | _, partHole p | _, targetAccess p | _, targetPattern p | _, targetParen p
  | _, patternPropertyRest p | _, patternItemRest p | _, parameter p | _, startExpr p
  | _, headTarget p => p.keeps_visit limit
  | _, cons p q | _, access p q | _, patternItem p q | _, callable p q =>
    .andThen (p.keeps_visit limit) (q.keeps_visit limit)
  | _, patternProperty key target default =>
    .andThen (key.keeps_visit limit)
      (.andThen (target.keeps_visit limit) (default.keeps_visit limit))
  -- names
  | _, name _ | _, targetName _ => .identifier
  | _, keyName _ | _, keyString _ _ | _, fieldName _ => .node .identifier
  -- one node
  | _, this | _, literal _ | _, regExp _ _ | _, newTarget | _, keyNumber _ _ | _, partText _
  | _, empty | _, debugger | _, continueLoop _ | _, breakOut _ => .node .skip
  | _, array p _ | _, object p _ | _, classExpr p | _, template p | _, property p
  | _, importCall p | _, unary _ p | _, update _ p | _, privateIn _ p | _, await p | _, yield _ p
  | _, itemSpread p | _, memberSpread p | _, objectPattern p | _, arrayPattern p
  | _, parameterRest p | _, bodyBlock _ p | _, block p | _, expression p | _, returnValue p
  | _, labelled _ p | _, throwValue p | _, classDeclaration p => .node (p.keeps_visit limit)
  | _, tagged p _ q | _, call p q | _, construct p q | _, chain p q | _, assign _ p q
  | _, binary _ p q | _, member p q | _, parameterDefault p q | _, elementField _ p q
  | _, doWhile p q | _, whileLoop p q | _, switch p q | _, withObject p q
  | _, variableDeclaration _ p q | _, startVariables _ p q | _, clause p q | _, handler p q =>
    .node (.andThen (p.keeps_visit limit) (q.keeps_visit limit))
  | _, conditional p q r | _, choose p q r | _, forIn p q r | _, forOf _ p q r
  | _, tryBlock p q r =>
    .node (.andThen (p.keeps_visit limit) (.andThen (q.keeps_visit limit) (r.keeps_visit limit)))
  | _, forLoop start test step body =>
    .node (.andThen (start.keeps_visit limit) (.andThen (test.keeps_visit limit)
      (.andThen (step.keeps_visit limit) (body.keeps_visit limit))))
  -- a node with a name or with leaves
  | _, function n _ f | _, arrow n _ f => .node (.andThen (.naming n) (f.keeps_visit limit))
  | _, functionDeclaration _ _ f => .node (.andThen .identifier (f.keeps_visit limit))
  | _, superCall arguments => .node (.andThen (.leaf _) (arguments.keeps_visit limit))
  | _, superAccess field => .andThen (.leaf _) (field.keeps_visit limit)
  | _, shorthand _ => .node (.andThen (.leaf _) .identifier)
  | _, coverDefault _ value =>
    .node (.andThen (.leaf _) (.andThen .identifier (value.keeps_visit limit)))
  | _, memberMethod _ key f | _, elementMethod _ _ key f =>
    .node (.andThen (.leaf _) (.andThen (key.keeps_visit limit) (f.keeps_visit limit)))
  | _, classBody n superclass absent elements =>
    .andThen (.andThen (.leaf _) (.andThen (.naming n) (superclass.keeps_visit limit)))
      (elements.keeps_visit limit)
  | _, classBody n superclass (present f) elements =>
    .andThen (.andThen (.leaf _) (.andThen (.naming n) (superclass.keeps_visit limit)))
      (.andThen (.namingWritten n) (.andThen (f.keeps_visit limit) (elements.keeps_visit limit)))
  -- two nodes
  | _, bodyValue p | _, staticBlock p => .node (.node (p.keeps_visit limit))
  -- variables
  | _, declarator target value =>
    .nodeOnce (.andThen (target.keeps_visit limit) (value.keeps_visit limit))
  | _, headVariable .var binding => .loopVariable (.nodeOnce (binding.keeps_visit limit))
  | _, headVariable .lets binding | _, headVariable .const binding =>
    .loopVariable (binding.keeps_visit limit)

end Phrase

/-! ## What is planted -/

namespace Visit

/-- The planter goes on below a node of kind `parent`. -/
structure Below (parent : NodeKind) (p : Planter) : Prop extends p.Ready where
  kind : p.tree.kind? p.current = some parent

/-- Below a node of kind `parent` and behind the growths `before`, a visit plants what `after` has
more. Both lists are last first. -/
def Plants (limit : Nat) (parent : NodeKind) (before : List Growth) (v : Visit)
    (after : List Growth) : Prop :=
  ∀ p : Planter, Below parent p →
    (Growth.plantAll limit before.reverse p).bind v = Growth.plantAll limit after.reverse p

variable {limit : Nat} {parent kind : NodeKind} {p q : Planter} {v w inside : Visit}
  {before between after children : List Growth}

theorem Below.enter (h : p.Ready) (kind : NodeKind) : Below kind (p.enter kind) where
  toReady := h.enter kind
  kind := by rw [Planter.current_enter, Planter.tree_enter, SyntaxTree.kind?_push, if_pos rfl]

theorem Below.planted {gs : List Growth} (h : Below parent p)
    (hq : Growth.plantAll limit gs p = some q) : Below parent q where
  toReady := (Growth.adds_plantAll h.toReady hq).ready h.toReady
  kind := by
    have hadds := Growth.adds_plantAll h.toReady hq
    rw [Planter.current_congr hadds.path, hadds.kind _ h.current_lt, h.kind]

namespace Plants

theorem skip : Plants limit parent before skip before := by
  intro p _
  exact Option.bind_fun_some _

theorem andThen (hv : Plants limit parent before v between)
    (hw : Plants limit parent between w after) : Plants limit parent before (v >=> w) after := by
  intro p hp
  rw [← hw p hp, ← hv p hp, Option.bind_assoc]
  rfl

/-- A visit that does what one growth says. -/
theorem of_plant {g : Growth} (h : ∀ p, Below parent p → v p = g.plant limit p) :
    Plants limit parent before v (g :: before) := by
  intro p hp
  rw [List.reverse_cons, Growth.plantAll_append]
  refine Option.bind_congr fun q hq => ?_
  rw [h q (hp.planted hq), Growth.plantAll_singleton]

theorem leaf (kind : NodeKind) : Plants limit parent before (leaf kind) (.leaf kind :: before) :=
  of_plant fun _ _ => rfl

theorem node (h : Plants limit kind [] inside children) :
    Plants limit parent before (node limit kind inside) (branch kind children :: before) := by
  refine of_plant fun p hp => ?_
  rw [branch, Growth.plant, ← h _ (.enter hp.toReady kind)]
  rfl

theorem congr (h : ∀ p, Below parent p → v p = w p) (hw : Plants limit parent before w after) :
    Plants limit parent before v after := by
  intro p hp
  rw [← hw p hp]
  exact Option.bind_congr fun q hq => h q (hp.planted hq)

/-- Below nodes of some kinds there is room for all that may be anywhere. -/
theorem opened (hkind : kind.Open) (h : kind.Open → Plants limit kind [] inside children) :
    Plants limit parent before (Visit.node limit kind inside) (branch kind children :: before) :=
  .node (h hkind)

/-- A node of another kind than the current one is entered. -/
theorem nodeOnce (hne : parent ≠ kind) (h : Plants limit kind [] inside children) :
    Plants limit parent before (nodeOnce limit kind inside) (branch kind children :: before) := by
  refine .congr (fun p hp => ?_) (.node h)
  rw [Visit.nodeOnce, hp.kind, if_neg fun heq => hne (Option.some.inj heq)]

/-- A node of the kind of the current one is not. -/
theorem nodeOnce_self (h : Plants limit kind before inside after) :
    Plants limit kind before (Visit.nodeOnce limit kind inside) after := by
  refine .congr (fun p hp => ?_) h
  rw [Visit.nodeOnce, if_pos hp.kind]

theorem identifier (h : parent.Open) :
    Plants limit parent before (identifier limit) (.node .identifier [] :: before) := by
  refine nodeOnce ?_ .skip
  rintro rfl
  exact h.1 (by decide)

/-- The node of a name, in which its identifier is visited. -/
theorem name : Plants limit parent before (Visit.node limit .identifier (Visit.identifier limit))
    (.node .identifier [] :: before) :=
  .node (.nodeOnce_self .skip)

theorem naming (h : parent.Open) : ∀ n : Naming,
    Plants limit parent before (n.visit limit) (n.lower before)
  | .anonymous => .skip
  | .written _ | .inferred _ => .identifier h

theorem namingWritten (h : parent.Open) : ∀ n : Naming,
    Plants limit parent before (n.visitWritten limit) (n.lowerWritten before)
  | .written _ => .identifier h
  | .anonymous | .inferred _ => .skip

theorem loopVariable (h : Plants limit .variableDeclarator [] inside children) :
    Plants limit parent before (loopVariable limit inside)
      (.loopVariable children.reverse :: before) := by
  refine of_plant fun p hp => ?_
  have hdeclaration := hp.toReady.enter .variableDeclaration
  rw [Growth.plant]
  simp only [← h _ (.enter hdeclaration .variableDeclarator)]
  rfl

end Plants

end Visit

namespace Phrase

open Visit (Plants)

/-- Wherever the grammar puts a phrase, its visit plants what it lowers to. -/
theorem plants_visit (limit : Nat) : ∀ {c : Category} (p : Phrase c) {parent : NodeKind}
    {before : List Growth}, c.Below parent → Plants limit parent before (p.visit limit)
      (p.lower before)
  | _, nil | _, absent | _, itemHole | _, keyPrivate _ | _, fieldPrivate _ | _, patternItemHole
  | _, startNothing => fun _ => .skip
  | _, present p | _, paren p | _, item p | _, keyComputed p | _, fieldIndex p | _, linkField p
  | _, linkCall p | _, targetAccess p | _, targetPattern p | _, targetParen p
  | _, patternPropertyRest p | _, patternItemRest p | _, parameter p | _, startExpr p
  | _, headTarget p => fun h => p.plants_visit limit h
  | _, cons p q | _, access p q | _, patternItem p q | _, callable p q => fun h =>
    .andThen (p.plants_visit limit h) (q.plants_visit limit h)
  | _, patternProperty key target default => fun h =>
    .andThen (key.plants_visit limit h)
      (.andThen (target.plants_visit limit h) (default.plants_visit limit h))
  | _, partHole value => fun h => value.plants_visit limit (Category.open_of_part h)
  -- names
  | _, name _ | _, targetName _ => fun h => .identifier h
  | _, keyName _ | _, keyString _ _ | _, fieldName _ => fun _ => .name
  -- one node
  | _, this | _, literal _ | _, regExp _ _ | _, newTarget | _, keyNumber _ _ | _, partText _
  | _, empty | _, debugger | _, continueLoop _ | _, breakOut _ => fun _ => .node .skip
  | _, array p _ | _, property p | _, importCall p | _, unary _ p | _, update _ p
  | _, privateIn _ p | _, await p | _, yield _ p | _, itemSpread p | _, memberSpread p
  | _, objectPattern p | _, arrayPattern p | _, parameterRest p | _, bodyBlock _ p | _, block p
  | _, expression p | _, returnValue p | _, labelled _ p | _, throwValue p => fun _ =>
    .opened (by decide) fun k => p.plants_visit limit k
  | _, object p _ | _, template p => fun _ => .node (p.plants_visit limit rfl)
  | _, classExpr p => fun _ => .node (p.plants_visit limit (.inr rfl))
  | _, classDeclaration p => fun _ => .node (p.plants_visit limit (.inl rfl))
  | _, tagged p _ q | _, call p q | _, construct p q | _, chain p q | _, assign _ p q
  | _, member p q | _, parameterDefault p q | _, elementField _ p q | _, doWhile p q
  | _, whileLoop p q | _, withObject p q | _, clause p q | _, handler p q => fun _ =>
    .opened (by decide) fun k => .andThen (p.plants_visit limit k) (q.plants_visit limit k)
  | _, binary op left right => fun _ =>
    .opened op.free_nodeKind.2 fun k =>
      .andThen (left.plants_visit limit k) (right.plants_visit limit k)
  | _, switch subject clauses => fun _ =>
    .opened (by decide) fun k =>
      .andThen (subject.plants_visit limit k) (clauses.plants_visit limit rfl)
  | _, conditional p q r | _, choose p q r | _, forIn p q r | _, forOf _ p q r => fun _ =>
    .opened (by decide) fun k => .andThen (p.plants_visit limit k)
      (.andThen (q.plants_visit limit k) (r.plants_visit limit k))
  | _, tryBlock statements caught finalizer => fun _ =>
    .opened (by decide) fun k => .andThen (statements.plants_visit limit k)
      (.andThen (caught.plants_visit limit rfl) (finalizer.plants_visit limit k))
  | _, forLoop start test step body => fun _ =>
    .opened (by decide) fun k => .andThen (start.plants_visit limit k)
      (.andThen (test.plants_visit limit k)
        (.andThen (step.plants_visit limit k) (body.plants_visit limit k)))
  -- a node with a name or with leaves
  | _, function n _ f | _, arrow n _ f => fun _ =>
    .opened (by decide) fun k => .andThen (.naming k n) (f.plants_visit limit k)
  | _, functionDeclaration _ _ f => fun _ =>
    .opened (by decide) fun k => .andThen (.identifier k) (f.plants_visit limit k)
  | _, superCall arguments => fun _ =>
    .opened (by decide) fun k => .andThen (.leaf _) (arguments.plants_visit limit k)
  | _, superAccess field => fun h => .andThen (.leaf _) (field.plants_visit limit h)
  | _, shorthand _ => fun _ =>
    .opened (by decide) fun k => .andThen (.leaf _) (.identifier k)
  | _, coverDefault _ value => fun _ =>
    .opened (by decide) fun k =>
      .andThen (.leaf _) (.andThen (.identifier k) (value.plants_visit limit k))
  | _, memberMethod _ key f | _, elementMethod _ _ key f => fun _ =>
    .opened (by decide) fun k =>
      .andThen (.leaf _) (.andThen (key.plants_visit limit k) (f.plants_visit limit k))
  | _, classBody n superclass absent elements => fun h =>
    have k := Category.open_of_element h
    .andThen (.andThen (.leaf _) (.andThen (.naming k n) (superclass.plants_visit limit k)))
      (elements.plants_visit limit h)
  | _, classBody n superclass (present f) elements => fun h =>
    have k := Category.open_of_element h
    .andThen (.andThen (.leaf _) (.andThen (.naming k n) (superclass.plants_visit limit k)))
      (.andThen (.namingWritten k n)
        (.andThen (f.plants_visit limit k) (elements.plants_visit limit h)))
  -- two nodes
  | _, bodyValue p | _, staticBlock p => fun _ =>
    .node (.opened (by decide) fun k => p.plants_visit limit k)
  -- variables
  | _, variableDeclaration _ first more | _, startVariables _ first more => fun _ =>
    .node (.andThen (first.plants_visit limit rfl) (more.plants_visit limit rfl))
  | _, declarator target value => fun (h : _ = _) =>
    have k : NodeKind.Open .variableDeclarator := by decide
    .nodeOnce (by rw [h]; decide)
      (.andThen (target.plants_visit limit k) (value.plants_visit limit k))
  | _, headVariable .var binding => fun _ =>
    have k : NodeKind.Open .variableDeclarator := by decide
    .loopVariable (.nodeOnce_self (binding.plants_visit limit k))
  | _, headVariable .lets binding | _, headVariable .const binding => fun _ =>
    have k : NodeKind.Open .variableDeclarator := by decide
    .loopVariable (binding.plants_visit limit k)

end Phrase

namespace Program

/-- The tree that is made by visiting the statements of a script one after the other. -/
def visit (limit : Nat) (s : Program) : Option SyntaxTree :=
  (s.statements.foldlM (fun p (s : Statement) => s.visit limit p) (Planter.new .program)).map
    (·.tree)

theorem foldlM_visit (limit : Nat) (statements : List Statement) (before : List Growth)
    {p : Planter} (hp : Visit.Below .program p) :
    (Growth.plantAll limit before.reverse p).bind
        (statements.foldlM fun p (s : Statement) => s.visit limit p) =
      Growth.plantAll limit
        (statements.foldl (fun before s => s.lower before) before).reverse p := by
  induction statements generalizing before with
  | nil => exact Option.bind_fun_some _
  | cons s rest ih =>
    have hopen : NodeKind.Open .program := by decide
    rw [List.foldl_cons, ← ih, ← s.plants_visit limit hopen p hp, Option.bind_assoc]
    rfl

/-- Visiting a script makes the tree that it lowers to, under every limit. -/
theorem visit_eq (limit : Nat) (s : Program) : s.visit limit = s.tree? limit := by
  have hroot : Visit.Below .program (Planter.new .program) := ⟨.new .program, rfl⟩
  rw [visit, tree?, SyntaxTree.grow?, growths, growthsOf, ← foldlM_visit limit _ [] hroot]
  rfl

end Program

end ScriptFeatures.Script
