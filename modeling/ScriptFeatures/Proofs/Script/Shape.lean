import ScriptFeatures.Proofs.Script.Lowering
import ScriptFeatures.Proofs.Tree.Shape

/-! Lowered scripts have ESTree shape. `Category.Below` says below which kinds of nodes the grammar
puts the phrases of a category: the members of an object below its node, the elements of a class
below the node of the class, expressions and statements below every kind that may have children.
What a phrase lowers to keeps to the law there (`Phrase.suits_lower`), by one case for each kind of
phrase. -/

namespace ScriptFeatures.Script

open ScriptFeatures.Tree

/-- Phrases of a category stand directly below nodes of kind `parent`. -/
def Category.Below (parent : NodeKind) : Category → Prop
  | .member => parent = .objectExpression
  | .part => parent = .templateLiteral
  | .classBody | .element => parent = .classDeclaration ∨ parent = .classExpression
  | .declarator => parent = .variableDeclaration
  | .clause => parent = .switchStatement
  | .handler => parent = .tryStatement
  | .list c | .optional c => c.Below parent
  | _ => parent.Open

namespace Category

variable {parent : NodeKind}

theorem open_of_part (h : Below parent .part) : parent.Open := by
  obtain rfl : parent = .templateLiteral := h
  decide

theorem open_of_element (h : Below parent .element) : parent.Open := by
  obtain rfl | rfl : parent = .classDeclaration ∨ parent = .classExpression := h
  · decide
  · decide

/-- The two kinds of classes have the same children. -/
theorem admits_of_element {kind : NodeKind} (h : Below parent .element)
    (hkind : kind.owners? = some [.classDeclaration, .classExpression]) : parent.Admits kind := by
  have hopen := open_of_element h
  refine ⟨?_, hopen.1, fun heq => absurd heq hopen.2⟩
  rw [hkind]
  rintro owners ⟨⟩
  obtain rfl | rfl : parent = .classDeclaration ∨ parent = .classExpression := h
  · exact List.mem_cons_self
  · exact List.mem_cons_of_mem _ List.mem_cons_self

end Category

/-! ## Lists of growths -/

/-- All growths of a list keep to the law below nodes of kind `parent`. -/
def Suited (parent : NodeKind) (gs : List Growth) : Prop :=
  ∀ g ∈ gs, g.Suits parent

namespace Suited

variable {parent kind : NodeKind} {children before : List Growth}

theorem nil : Suited parent [] :=
  fun _ h => absurd h List.not_mem_nil

theorem cons {g : Growth} (hg : g.Suits parent) (hbefore : Suited parent before) :
    Suited parent (g :: before) :=
  List.forall_mem_cons.mpr ⟨hg, hbefore⟩

theorem leaf (h : parent.Admits kind) (hkind : kind ≠ .variableDeclaration)
    (hbefore : Suited parent before) : Suited parent (.leaf kind :: before) :=
  hbefore.cons (.leaf h hkind)

/-- A node of a kind that only some kinds of nodes may have for a child. -/
theorem owned (h : parent.Admits kind) (hkind : kind.Open)
    (hchildren : kind.Open → Suited kind children) (hbefore : Suited parent before) :
    Suited parent (branch kind children :: before) :=
  hbefore.cons (.node h (fun heq => absurd heq hkind.2) fun g hg =>
    hchildren hkind g (List.mem_reverse.mp hg))

/-- A node of a kind that may be anywhere. -/
theorem free (h : parent.Open) (hfree : kind.owners? = none) (hkind : kind.Open)
    (hchildren : kind.Open → Suited kind children) (hbefore : Suited parent before) :
    Suited parent (branch kind children :: before) :=
  owned (h.admits hfree) hkind hchildren hbefore

theorem bare (h : parent.Admits kind) (hkind : kind ≠ .variableDeclaration)
    (hbefore : Suited parent before) : Suited parent (.node kind [] :: before) :=
  hbefore.cons (.node h (fun heq => absurd heq hkind) nil)

/-- A node without children of a kind that may be anywhere. -/
theorem freeBare (h : parent.Open) (hfree : kind.owners? = none)
    (hkind : kind ≠ .variableDeclaration) (hbefore : Suited parent before) :
    Suited parent (.node kind [] :: before) :=
  bare (h.admits hfree) hkind hbefore

theorem naming (h : parent.Open) (n : Naming) (hbefore : Suited parent before) :
    Suited parent (n.lower before) := by
  cases n with
  | anonymous => exact hbefore
  | written _ | inferred _ => exact freeBare h rfl (by decide) hbefore

theorem namingWritten (h : parent.Open) (n : Naming) (hbefore : Suited parent before) :
    Suited parent (n.lowerWritten before) := by
  cases n with
  | written _ => exact freeBare h rfl (by decide) hbefore
  | anonymous | inferred _ => exact hbefore

theorem declaration (h : parent.Open) (hne : children ≠ [])
    (hchildren : Suited .variableDeclaration children) (hbefore : Suited parent before) :
    Suited parent (branch .variableDeclaration children :: before) :=
  hbefore.cons (.node (h.admits rfl) (fun _ hnil => hne (List.reverse_eq_nil_iff.mp hnil))
    fun g hg => hchildren g (List.mem_reverse.mp hg))

/-- The variable of a loop head, with the declaration around it. -/
theorem loopVariable (h : parent.Open)
    (hchildren : NodeKind.Open .variableDeclarator → Suited .variableDeclarator children)
    (hbefore : Suited parent before) :
    Suited parent (.loopVariable children.reverse :: before) := by
  have hdeclarator : Growth.Suits .variableDeclaration (branch .variableDeclarator children) :=
    .node (by decide) (fun heq => nomatch heq) fun g hg =>
      hchildren (by decide) g (List.mem_reverse.mp hg)
  refine hbefore.cons (.loopVariable (.node (h.admits rfl) (fun _ => List.cons_ne_nil _ _) ?_))
  exact List.forall_mem_singleton.mpr hdeclarator

end Suited

theorem BinaryOp.free_nodeKind (op : BinaryOp) :
    op.nodeKind.owners? = none ∧ op.nodeKind.Open := by
  cases op <;> simp only [nodeKind] <;> decide

namespace Phrase

theorem lower_declarator_ne_nil : ∀ (d : Phrase .declarator) (before : List Growth),
    d.lower before ≠ []
  | declarator _ _, _ => List.cons_ne_nil _ _

theorem lower_declarators_ne_nil : ∀ (more : Phrase (.list .declarator)) {before : List Growth},
    before ≠ [] → more.lower before ≠ []
  | nil, _, h => h
  | cons first rest, _, _ => rest.lower_declarators_ne_nil (first.lower_declarator_ne_nil _)

open Suited in
/-- What a phrase lowers to keeps to the law wherever the grammar puts the phrase. -/
theorem suits_lower : ∀ {c : Category} (p : Phrase c) {parent : NodeKind} {before : List Growth},
    c.Below parent → Suited parent before → Suited parent (p.lower before)
  | _, nil => fun _ hb => hb
  | _, cons first rest => fun h hb => rest.suits_lower h (first.suits_lower h hb)
  | _, absent => fun _ hb => hb
  | _, present part => fun h hb => part.suits_lower h hb
  -- expressions
  | _, this | _, name _ | _, literal _ | _, regExp _ _ | _, newTarget => fun h hb =>
    freeBare h rfl (by decide) hb
  | _, array items _ => fun h hb =>
    free h rfl (by decide) (fun k => items.suits_lower k .nil) hb
  | _, object members _ => fun h hb =>
    free h rfl (by decide) (fun _ => members.suits_lower rfl .nil) hb
  | _, function n _ f => fun h hb =>
    free h rfl (by decide) (fun k => f.suits_lower k (naming k n .nil)) hb
  | _, arrow n _ f => fun h hb =>
    free h rfl (by decide) (fun k => f.suits_lower k (naming k n .nil)) hb
  | _, classExpr c => fun h hb =>
    free h rfl (by decide) (fun _ => c.suits_lower (.inr rfl) .nil) hb
  | _, template parts => fun h hb =>
    free h rfl (by decide) (fun _ => parts.suits_lower rfl .nil) hb
  | _, tagged tag _ holes => fun h hb =>
    free h rfl (by decide) (fun k => holes.suits_lower k (tag.suits_lower k .nil)) hb
  | _, property a => fun h hb =>
    free h rfl (by decide) (fun k => a.suits_lower k .nil) hb
  | _, call callee arguments => fun h hb =>
    free h rfl (by decide) (fun k => arguments.suits_lower k (callee.suits_lower k .nil)) hb
  | _, superCall arguments => fun h hb =>
    free h rfl (by decide)
      (fun k => arguments.suits_lower k (leaf (k.admits rfl) (by decide) .nil)) hb
  | _, importCall source => fun h hb =>
    free h rfl (by decide) (fun k => source.suits_lower k .nil) hb
  | _, construct callee arguments => fun h hb =>
    free h rfl (by decide) (fun k => arguments.suits_lower k (callee.suits_lower k .nil)) hb
  | _, chain start links => fun h hb =>
    free h rfl (by decide) (fun k => links.suits_lower k (start.suits_lower k .nil)) hb
  | _, assign _ target value => fun h hb =>
    free h rfl (by decide) (fun k => value.suits_lower k (target.suits_lower k .nil)) hb
  | _, unary _ operand => fun h hb =>
    free h rfl (by decide) (fun k => operand.suits_lower k .nil) hb
  | _, update _ target => fun h hb =>
    free h rfl (by decide) (fun k => target.suits_lower k .nil) hb
  | _, binary op left right => fun h hb =>
    free h op.free_nodeKind.1 op.free_nodeKind.2
      (fun k => right.suits_lower k (left.suits_lower k .nil)) hb
  | _, privateIn _ right => fun h hb =>
    free h rfl (by decide) (fun k => right.suits_lower k .nil) hb
  | _, conditional test yes no => fun h hb =>
    free h rfl (by decide)
      (fun k => no.suits_lower k (yes.suits_lower k (test.suits_lower k .nil))) hb
  | _, await operand => fun h hb =>
    free h rfl (by decide) (fun k => operand.suits_lower k .nil) hb
  | _, yield _ operand => fun h hb =>
    free h rfl (by decide) (fun k => operand.suits_lower k .nil) hb
  | _, paren inner => fun h hb => inner.suits_lower h hb
  -- elements, arguments and members
  | _, itemHole => fun _ hb => hb
  | _, item value => fun h hb => value.suits_lower h hb
  | _, itemSpread value => fun h hb =>
    free h rfl (by decide) (fun k => value.suits_lower k .nil) hb
  | _, member key value => fun (h : _ = _) hb =>
    owned (by rw [h]; decide) (by decide)
      (fun k => value.suits_lower k (key.suits_lower k .nil)) hb
  | _, shorthand _ => fun (h : _ = _) hb =>
    show Suited _ (branch .property [.node .identifier [], .leaf .identifier] :: _) from
    owned (by rw [h]; decide) (by decide)
      (fun k => freeBare k rfl (by decide) (leaf (k.admits rfl) (by decide) .nil)) hb
  | _, coverDefault _ value => fun (h : _ = _) hb =>
    owned (by rw [h]; decide) (by decide)
      (fun k => value.suits_lower k
        (freeBare k rfl (by decide) (leaf (k.admits rfl) (by decide) .nil))) hb
  | _, memberMethod _ key f => fun (h : _ = _) hb =>
    owned (by rw [h]; decide) (by decide)
      (fun k => f.suits_lower k (key.suits_lower k (leaf (k.admits rfl) (by decide) .nil))) hb
  | _, memberSpread value => fun (h : _ = _) hb =>
    free (by rw [h]; decide) rfl (by decide) (fun k => value.suits_lower k .nil) hb
  -- keys and accesses
  | _, keyName _ | _, keyString _ _ | _, keyNumber _ _ => fun h hb =>
    freeBare h rfl (by decide) hb
  | _, keyComputed value => fun h hb => value.suits_lower h hb
  | _, keyPrivate _ => fun _ hb => hb
  | _, access owner field => fun h hb => field.suits_lower h (owner.suits_lower h hb)
  | _, superAccess field => fun h hb =>
    field.suits_lower h (leaf (NodeKind.Open.admits h rfl) (by decide) hb)
  | _, fieldName _ => fun h hb => freeBare h rfl (by decide) hb
  | _, fieldPrivate _ => fun _ hb => hb
  | _, fieldIndex value => fun h hb => value.suits_lower h hb
  | _, linkField f => fun h hb => f.suits_lower h hb
  | _, linkCall arguments => fun h hb => arguments.suits_lower h hb
  | _, partText _ => fun (h : _ = _) hb => bare (by rw [h]; decide) (by decide) hb
  | _, partHole value => fun h hb => value.suits_lower (Category.open_of_part h) hb
  -- targets and patterns
  | _, targetName _ => fun h hb => freeBare h rfl (by decide) hb
  | _, targetAccess a => fun h hb => a.suits_lower h hb
  | _, targetPattern p => fun h hb => p.suits_lower h hb
  | _, targetParen inner => fun h hb => inner.suits_lower h hb
  | _, objectPattern properties => fun h hb =>
    free h rfl (by decide) (fun k => properties.suits_lower k .nil) hb
  | _, arrayPattern items => fun h hb =>
    free h rfl (by decide) (fun k => items.suits_lower k .nil) hb
  | _, patternProperty key target default => fun h hb =>
    default.suits_lower h (target.suits_lower h (key.suits_lower h hb))
  | _, patternPropertyRest target => fun h hb => target.suits_lower h hb
  | _, patternItemHole => fun _ hb => hb
  | _, patternItem target default => fun h hb => default.suits_lower h (target.suits_lower h hb)
  | _, patternItemRest target => fun h hb => target.suits_lower h hb
  -- functions and classes
  | _, parameter target => fun h hb => target.suits_lower h hb
  | _, parameterDefault target default => fun h hb =>
    free h rfl (by decide) (fun k => default.suits_lower k (target.suits_lower k .nil)) hb
  | _, parameterRest target => fun h hb =>
    free h rfl (by decide) (fun k => target.suits_lower k .nil) hb
  | _, bodyBlock _ statements => fun h hb =>
    free h rfl (by decide) (fun k => statements.suits_lower k .nil) hb
  | _, bodyValue value => fun h hb =>
    show Suited _ (branch .blockStatement [branch .returnStatement _] :: _) from
    free h rfl (by decide) (fun k =>
      free k rfl (by decide) (fun k => value.suits_lower k .nil) .nil) hb
  | _, callable parameters body => fun h hb => body.suits_lower h (parameters.suits_lower h hb)
  | _, classBody n superclass absent elements => fun h hb =>
    have k := Category.open_of_element h
    elements.suits_lower h
      (superclass.suits_lower k (naming k n (leaf (k.admits rfl) (by decide) hb)))
  | _, classBody n superclass (present f) elements => fun h hb =>
    have k := Category.open_of_element h
    elements.suits_lower h (f.suits_lower k (namingWritten k n
      (superclass.suits_lower k (naming k n (leaf (k.admits rfl) (by decide) hb)))))
  | _, elementMethod _ _ key f => fun h hb =>
    owned (Category.admits_of_element h rfl) (by decide)
      (fun k => f.suits_lower k (key.suits_lower k (leaf (k.admits rfl) (by decide) .nil))) hb
  | _, elementField _ key value => fun h hb =>
    owned (Category.admits_of_element h rfl) (by decide)
      (fun k => value.suits_lower k (key.suits_lower k .nil)) hb
  | _, staticBlock statements => fun h hb =>
    show Suited _ (branch .staticBlock [branch .blockStatement _] :: _) from
    owned (Category.admits_of_element h rfl) (by decide) (fun k =>
      free k rfl (by decide) (fun k => statements.suits_lower k .nil) .nil) hb
  -- statements
  | _, block statements => fun h hb =>
    free h rfl (by decide) (fun k => statements.suits_lower k .nil) hb
  | _, empty | _, debugger | _, continueLoop _ | _, breakOut _ => fun h hb =>
    freeBare h rfl (by decide) hb
  | _, expression value => fun h hb =>
    free h rfl (by decide) (fun k => value.suits_lower k .nil) hb
  | _, choose test yes no => fun h hb =>
    free h rfl (by decide)
      (fun k => no.suits_lower k (yes.suits_lower k (test.suits_lower k .nil))) hb
  | _, doWhile body test => fun h hb =>
    free h rfl (by decide) (fun k => test.suits_lower k (body.suits_lower k .nil)) hb
  | _, whileLoop test body => fun h hb =>
    free h rfl (by decide) (fun k => body.suits_lower k (test.suits_lower k .nil)) hb
  | _, forLoop start test step body => fun h hb =>
    free h rfl (by decide) (fun k =>
      body.suits_lower k (step.suits_lower k (test.suits_lower k (start.suits_lower k .nil)))) hb
  | _, forIn head subject body | _, forOf _ head subject body => fun h hb =>
    free h rfl (by decide)
      (fun k => body.suits_lower k (subject.suits_lower k (head.suits_lower k .nil))) hb
  | _, switch subject clauses => fun h hb =>
    free h rfl (by decide) (fun k => clauses.suits_lower rfl (subject.suits_lower k .nil)) hb
  | _, returnValue value => fun h hb =>
    free h rfl (by decide) (fun k => value.suits_lower k .nil) hb
  | _, labelled _ body => fun h hb =>
    free h rfl (by decide) (fun k => body.suits_lower k .nil) hb
  | _, throwValue value => fun h hb =>
    free h rfl (by decide) (fun k => value.suits_lower k .nil) hb
  | _, tryBlock statements caught finalizer => fun h hb =>
    free h rfl (by decide) (fun k =>
      finalizer.suits_lower k (caught.suits_lower rfl (statements.suits_lower k .nil))) hb
  | _, withObject subject body => fun h hb =>
    free h rfl (by decide) (fun k => body.suits_lower k (subject.suits_lower k .nil)) hb
  | _, variableDeclaration _ first more | _, startVariables _ first more => fun h hb =>
    declaration h (more.lower_declarators_ne_nil (first.lower_declarator_ne_nil _))
      (more.suits_lower rfl (first.suits_lower rfl .nil)) hb
  | _, functionDeclaration _ _ f => fun h hb =>
    free h rfl (by decide) (fun k => f.suits_lower k (freeBare k rfl (by decide) .nil)) hb
  | _, classDeclaration c => fun h hb =>
    free h rfl (by decide) (fun _ => c.suits_lower (.inl rfl) .nil) hb
  -- parts of statements
  | _, declarator target value => fun (h : _ = _) hb =>
    owned (by rw [h]; decide) (by decide)
      (fun k => value.suits_lower k (target.suits_lower k .nil)) hb
  | _, startNothing => fun _ hb => hb
  | _, startExpr value => fun h hb => value.suits_lower h hb
  | _, headTarget t => fun h hb => t.suits_lower h hb
  | _, headVariable _ binding => fun h hb =>
    loopVariable h (fun k => binding.suits_lower k .nil) hb
  | _, clause test statements => fun (h : _ = _) hb =>
    owned (by rw [h]; decide) (by decide)
      (fun k => statements.suits_lower k (test.suits_lower k .nil)) hb
  | _, handler binding statements => fun (h : _ = _) hb =>
    owned (by rw [h]; decide) (by decide)
      (fun k => statements.suits_lower k (binding.suits_lower k .nil)) hb

end Phrase

theorem suited_foldl_lower (statements : List Statement) {before : List Growth}
    (h : Suited .program before) :
    Suited .program (statements.foldl (fun before s => s.lower before) before) := by
  induction statements generalizing before with
  | nil => exact h
  | cons s rest ih => exact ih (s.suits_lower (by decide : NodeKind.Open .program) h)

/-- The tree of a script has ESTree shape. -/
theorem Program.esTree_tree (s : Program) : s.tree.ESTree := by
  refine SyntaxTree.esTree_grow fun g hg => ?_
  rw [growths, growthsOf, List.mem_reverse] at hg
  exact suited_foldl_lower s.statements .nil g hg

end ScriptFeatures.Script
