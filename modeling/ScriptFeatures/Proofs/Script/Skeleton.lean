import ScriptFeatures.Proofs.Script.Visit

/-! The shape of a script. `Phrase.skeleton` takes all parentheses out of a phrase and makes every
name, label, literal, regular expression and template text the same; what a directive says goes with
its text. Phrases with one skeleton are visited alike, so their scripts have one tree. -/

namespace ScriptFeatures.Script

open ScriptFeatures.Tree

/-- Where a name comes from, but not which one it is. -/
def Naming.skeleton : Naming → Naming
  | .anonymous => .anonymous
  | .written _ => .written ""
  | .inferred _ => .inferred ""

namespace Phrase

/-- A phrase without parentheses and with nothing in its leaves. -/
def skeleton : {c : Category} → Phrase c → Phrase c
  | _, nil => nil
  | _, cons first rest => cons first.skeleton rest.skeleton
  | _, absent => absent
  | _, present part => present part.skeleton
  -- expressions
  | _, this => this
  | _, name _ => name ""
  | _, literal _ => literal .null
  | _, regExp _ _ => regExp "" ""
  | _, array items trailingComma => array items.skeleton trailingComma
  | _, object members trailingComma => object members.skeleton trailingComma
  | _, function naming kind f => function naming.skeleton kind f.skeleton
  | _, arrow naming isAsync f => arrow naming.skeleton isAsync f.skeleton
  | _, classExpr c => classExpr c.skeleton
  | _, template parts => template parts.skeleton
  | _, tagged tag _ holes => tagged tag.skeleton [] holes.skeleton
  | _, property a => property a.skeleton
  | _, call callee arguments => call callee.skeleton arguments.skeleton
  | _, superCall arguments => superCall arguments.skeleton
  | _, importCall source => importCall source.skeleton
  | _, construct callee arguments => construct callee.skeleton arguments.skeleton
  | _, chain start links => chain start.skeleton links.skeleton
  | _, newTarget => newTarget
  | _, assign op target value => assign op target.skeleton value.skeleton
  | _, unary op operand => unary op operand.skeleton
  | _, update op target => update op target.skeleton
  | _, binary op left right => binary op left.skeleton right.skeleton
  | _, privateIn _ right => privateIn "" right.skeleton
  | _, conditional test yes no => conditional test.skeleton yes.skeleton no.skeleton
  | _, await operand => await operand.skeleton
  | _, yield delegate operand => yield delegate operand.skeleton
  | _, paren inner => inner.skeleton
  -- elements, arguments and members
  | _, itemHole => itemHole
  | _, item value => item value.skeleton
  | _, itemSpread value => itemSpread value.skeleton
  | _, member key value => member key.skeleton value.skeleton
  | _, shorthand _ => shorthand ""
  | _, coverDefault _ value => coverDefault "" value.skeleton
  | _, memberMethod kind key f => memberMethod kind key.skeleton f.skeleton
  | _, memberSpread value => memberSpread value.skeleton
  -- keys and accesses; a name and a string are the same kind of key
  | _, keyName _ | _, keyString _ _ => keyName ""
  | _, keyNumber _ _ => keyNumber "" false
  | _, keyComputed value => keyComputed value.skeleton
  | _, keyPrivate _ => keyPrivate ""
  | _, access owner field => access owner.skeleton field.skeleton
  | _, superAccess field => superAccess field.skeleton
  | _, fieldName _ => fieldName ""
  | _, fieldPrivate _ => fieldPrivate ""
  | _, fieldIndex value => fieldIndex value.skeleton
  | _, linkField f => linkField f.skeleton
  | _, linkCall arguments => linkCall arguments.skeleton
  | _, partText _ => partText ""
  | _, partHole value => partHole value.skeleton
  -- targets and patterns
  | _, targetName _ => targetName ""
  | _, targetAccess a => targetAccess a.skeleton
  | _, targetPattern p => targetPattern p.skeleton
  | _, targetParen inner => inner.skeleton
  | _, objectPattern properties => objectPattern properties.skeleton
  | _, arrayPattern items => arrayPattern items.skeleton
  | _, patternProperty key target default =>
    patternProperty key.skeleton target.skeleton default.skeleton
  | _, patternPropertyRest target => patternPropertyRest target.skeleton
  | _, patternItemHole => patternItemHole
  | _, patternItem target default => patternItem target.skeleton default.skeleton
  | _, patternItemRest target => patternItemRest target.skeleton
  -- functions and classes
  | _, parameter target => parameter target.skeleton
  | _, parameterDefault target default => parameterDefault target.skeleton default.skeleton
  | _, parameterRest target => parameterRest target.skeleton
  | _, bodyBlock _ statements => bodyBlock false statements.skeleton
  | _, bodyValue value => bodyValue value.skeleton
  | _, callable parameters body => callable parameters.skeleton body.skeleton
  | _, classBody naming superclass initializer elements =>
    classBody naming.skeleton superclass.skeleton initializer.skeleton elements.skeleton
  | _, elementMethod isStatic kind key f => elementMethod isStatic kind key.skeleton f.skeleton
  | _, elementField isStatic key value => elementField isStatic key.skeleton value.skeleton
  | _, staticBlock statements => staticBlock statements.skeleton
  -- statements
  | _, block statements => block statements.skeleton
  | _, empty => empty
  | _, expression value => expression value.skeleton
  | _, debugger => debugger
  | _, choose test yes no => choose test.skeleton yes.skeleton no.skeleton
  | _, doWhile body test => doWhile body.skeleton test.skeleton
  | _, whileLoop test body => whileLoop test.skeleton body.skeleton
  | _, forLoop start test step body =>
    forLoop start.skeleton test.skeleton step.skeleton body.skeleton
  | _, forIn head subject body => forIn head.skeleton subject.skeleton body.skeleton
  | _, forOf isAwait head subject body =>
    forOf isAwait head.skeleton subject.skeleton body.skeleton
  | _, switch subject clauses => switch subject.skeleton clauses.skeleton
  | _, continueLoop label => continueLoop (label.map fun _ => "")
  | _, breakOut label => breakOut (label.map fun _ => "")
  | _, returnValue value => returnValue value.skeleton
  | _, labelled _ body => labelled "" body.skeleton
  | _, throwValue value => throwValue value.skeleton
  | _, tryBlock statements caught finalizer =>
    tryBlock statements.skeleton caught.skeleton finalizer.skeleton
  | _, withObject subject body => withObject subject.skeleton body.skeleton
  | _, variableDeclaration kind first more =>
    variableDeclaration kind first.skeleton more.skeleton
  | _, functionDeclaration _ kind f => functionDeclaration "" kind f.skeleton
  | _, classDeclaration c => classDeclaration c.skeleton
  -- parts of statements
  | _, declarator target value => declarator target.skeleton value.skeleton
  | _, startNothing => startNothing
  | _, startExpr value => startExpr value.skeleton
  | _, startVariables kind first more => startVariables kind first.skeleton more.skeleton
  | _, headTarget t => headTarget t.skeleton
  | _, headVariable kind binding => headVariable kind binding.skeleton
  | _, clause test statements => clause test.skeleton statements.skeleton
  | _, handler binding statements => handler binding.skeleton statements.skeleton

end Phrase

/-- The statements of a script by their skeletons. -/
def Program.skeleton (s : Program) : Program :=
  ⟨false, s.statements.map Phrase.skeleton⟩

/-! ## Visits see no more than the skeleton -/

namespace Visit

variable {limit : Nat} {kind : NodeKind} {v v' w w' : Visit}

theorem andThen_congr (hv : v = v') (hw : w = w') : (v >=> w) = (v' >=> w') := by
  rw [hv, hw]

theorem node_congr (h : v = v') : node limit kind v = node limit kind v' := by
  rw [h]

end Visit

theorem Naming.visit_skeleton (limit : Nat) (n : Naming) :
    n.skeleton.visit limit = n.visit limit := by
  cases n <;> rfl

theorem Naming.visitWritten_skeleton (limit : Nat) (n : Naming) :
    n.skeleton.visitWritten limit = n.visitWritten limit := by
  cases n <;> rfl

namespace Phrase

open Visit (andThen_congr node_congr)

/-- A phrase is visited like its skeleton, whatever the planter and the limit. Parentheses are no
node of their own and ask nothing of the current one; a leaf is visited without a look at it. -/
theorem visit_skeleton (limit : Nat) : ∀ {c : Category} (p : Phrase c),
    p.skeleton.visit limit = p.visit limit
  -- leaves
  | _, nil | _, absent | _, this | _, name _ | _, literal _ | _, regExp _ _ | _, newTarget
  | _, itemHole | _, shorthand _ | _, keyName _ | _, keyString _ _ | _, keyNumber _ _
  | _, keyPrivate _ | _, fieldName _ | _, fieldPrivate _ | _, partText _ | _, targetName _
  | _, patternItemHole | _, empty | _, debugger | _, continueLoop _ | _, breakOut _
  | _, startNothing => rfl
  -- parentheses
  | _, paren p | _, targetParen p => p.visit_skeleton limit
  -- parts without a node of their own
  | _, present p | _, item p | _, keyComputed p | _, fieldIndex p | _, linkField p
  | _, linkCall p | _, partHole p | _, targetAccess p | _, targetPattern p
  | _, patternPropertyRest p | _, patternItemRest p | _, parameter p | _, startExpr p
  | _, headTarget p => p.visit_skeleton limit
  | _, cons p q | _, access p q | _, patternItem p q | _, callable p q =>
    andThen_congr (p.visit_skeleton limit) (q.visit_skeleton limit)
  | _, patternProperty p q r =>
    andThen_congr (p.visit_skeleton limit)
      (andThen_congr (q.visit_skeleton limit) (r.visit_skeleton limit))
  -- one node
  | _, array p _ | _, object p _ | _, classExpr p | _, template p | _, property p
  | _, importCall p | _, unary _ p | _, update _ p | _, privateIn _ p | _, await p | _, yield _ p
  | _, itemSpread p | _, memberSpread p | _, objectPattern p | _, arrayPattern p
  | _, parameterRest p | _, bodyBlock _ p | _, block p | _, expression p | _, returnValue p
  | _, labelled _ p | _, throwValue p | _, classDeclaration p =>
    node_congr (p.visit_skeleton limit)
  | _, tagged p _ q | _, call p q | _, construct p q | _, chain p q | _, assign _ p q
  | _, binary _ p q | _, member p q | _, parameterDefault p q | _, elementField _ p q
  | _, doWhile p q | _, whileLoop p q | _, switch p q | _, withObject p q
  | _, variableDeclaration _ p q | _, startVariables _ p q | _, clause p q | _, handler p q =>
    node_congr (andThen_congr (p.visit_skeleton limit) (q.visit_skeleton limit))
  | _, conditional p q r | _, choose p q r | _, forIn p q r | _, forOf _ p q r
  | _, tryBlock p q r =>
    node_congr (andThen_congr (p.visit_skeleton limit)
      (andThen_congr (q.visit_skeleton limit) (r.visit_skeleton limit)))
  | _, forLoop p q r s =>
    node_congr (andThen_congr (p.visit_skeleton limit) (andThen_congr (q.visit_skeleton limit)
      (andThen_congr (r.visit_skeleton limit) (s.visit_skeleton limit))))
  -- a node with a name or with leaves
  | _, function n _ f | _, arrow n _ f =>
    node_congr (andThen_congr (n.visit_skeleton limit) (f.visit_skeleton limit))
  | _, functionDeclaration _ _ p | _, superCall p =>
    node_congr (andThen_congr rfl (p.visit_skeleton limit))
  | _, superAccess p => andThen_congr rfl (p.visit_skeleton limit)
  | _, coverDefault _ p =>
    node_congr (andThen_congr rfl (andThen_congr rfl (p.visit_skeleton limit)))
  | _, memberMethod _ p q | _, elementMethod _ _ p q =>
    node_congr (andThen_congr rfl
      (andThen_congr (p.visit_skeleton limit) (q.visit_skeleton limit)))
  | _, classBody n p absent q =>
    andThen_congr (andThen_congr rfl
      (andThen_congr (n.visit_skeleton limit) (p.visit_skeleton limit))) (q.visit_skeleton limit)
  | _, classBody n p (present f) q =>
    andThen_congr (andThen_congr rfl
      (andThen_congr (n.visit_skeleton limit) (p.visit_skeleton limit)))
      (andThen_congr (n.visitWritten_skeleton limit)
        (andThen_congr (f.visit_skeleton limit) (q.visit_skeleton limit)))
  -- two nodes
  | _, bodyValue p | _, staticBlock p => node_congr (node_congr (p.visit_skeleton limit))
  -- variables
  | _, declarator p q =>
    congrArg (Visit.declared limit)
      (andThen_congr (p.visit_skeleton limit) (q.visit_skeleton limit))
  | _, headVariable .var p =>
    congrArg (fun v => Visit.loopVariable limit (.declared limit v)) (p.visit_skeleton limit)
  | _, headVariable .lets p | _, headVariable .const p =>
    congrArg (Visit.loopVariable limit) (p.visit_skeleton limit)

end Phrase

theorem Program.visit_skeleton (limit : Nat) (s : Program) :
    s.skeleton.visit limit = s.visit limit := by
  have hstatement (statement : Statement) :
      statement.skeleton.visit limit = statement.visit limit :=
    statement.visit_skeleton limit
  simp only [visit, skeleton, List.foldlM_map, hstatement]

/-- Lowering sees only the shape of a script. Scripts that are the same but for parentheses and for
what their names, labels, literals, regular expressions and templates say have one tree, or none
under the same limits, which is the tree of their skeleton; and no part of them makes a difference
to the visitor, whatever stands around it. -/
theorem tree?_eq_of_skeleton_eq (limit : Nat) :
    (∀ a b : Program, a.skeleton = b.skeleton → a.tree? limit = b.tree? limit) ∧
    (∀ s : Program, s.skeleton.tree? limit = s.tree? limit) ∧
    ∀ (c : Category) (p q : Phrase c), p.skeleton = q.skeleton →
      ∀ planter : Planter, p.visit limit planter = q.visit limit planter := by
  have htree (s : Program) : s.skeleton.tree? limit = s.tree? limit := by
    rw [← Program.visit_eq, ← Program.visit_eq, Program.visit_skeleton]
  refine ⟨fun a b h => ?_, htree, fun c p q h planter => ?_⟩
  · rw [← htree a, h, htree b]
  · rw [← p.visit_skeleton limit, h, q.visit_skeleton limit]

/-- `l: (f)((1));` and `out: g("s");` -/
theorem tree?_eq_of_skeleton_eq_call :
    let a : Statement := .labelled "l" (.expression (.call (.paren (.name "f"))
      (.cons (.item (.paren (.literal (.number "1" false)))) .nil)))
    let b : Statement := .labelled "out" (.expression (.call (.name "g")
      (.cons (.item (.literal (.string "s" .plain))) .nil)))
    a.skeleton = b.skeleton ∧
      (∀ limit, Program.tree? limit ⟨false, [a]⟩ = Program.tree? limit ⟨false, [b]⟩) ∧
      ∀ limit planter, a.visit limit planter = b.visit limit planter :=
  ⟨rfl, fun limit => (tree?_eq_of_skeleton_eq limit).1 _ _ rfl,
    fun limit => (tree?_eq_of_skeleton_eq limit).2.2 _ _ _ rfl⟩

end ScriptFeatures.Script
