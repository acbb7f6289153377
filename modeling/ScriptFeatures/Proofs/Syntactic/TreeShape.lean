import ScriptFeatures.Proofs.Script.Shape
import ScriptFeatures.Proofs.Syntactic.LimitOrder

/-! The shape of the trees that parsing returns. A tree that is returned is the tree of the script
(`parse_eq_ok_iff`), so its shape is that of every lowered script, whatever the limits. -/

namespace ScriptFeatures.Syntactic

open ScriptFeatures.Tree (SyntaxTree)

/-- Every tree that parsing returns has ESTree shape. -/
theorem parse_esTree {limits : Limits} {source : String} {tree : SyntaxTree}
    (h : parse limits source = .ok tree) : tree.ESTree := by
  obtain ⟨-, script, -, -, rfl⟩ := parse_eq_ok_iff.mp h
  exact script.esTree_tree

/-- A loop whose head declares a variable, over an object, with a `switch` and a `try` in it. -/
theorem parse_esTree_loop :
    ∃ tree, parse ⟨100, 10, 10, 1⟩
        "for(var k in\x7ba\x7d)switch(k)\x7bcase 1:try\x7b\x7dcatch(e)\x7blet x,y\x7d\x7d" =
          .ok tree ∧
      tree.ESTree ∧
      tree.kinds = [.program, .forInStatement, .variableDeclaration, .variableDeclarator,
        .identifier, .objectExpression, .property, .identifier, .identifier, .switchStatement,
        .identifier, .switchCase, .literal, .tryStatement, .catchClause, .identifier,
        .variableDeclaration, .variableDeclarator, .identifier, .variableDeclarator,
        .identifier] := by
  have htest : (parse ⟨100, 10, 10, 1⟩
      "for(var k in\x7ba\x7d)switch(k)\x7bcase 1:try\x7b\x7dcatch(e)\x7blet x,y\x7d\x7d"
        ).toOption.any (fun tree => decide (tree.kinds = [.program, .forInStatement,
          .variableDeclaration, .variableDeclarator, .identifier, .objectExpression, .property,
          .identifier, .identifier, .switchStatement, .identifier, .switchCase, .literal,
          .tryStatement, .catchClause, .identifier, .variableDeclaration, .variableDeclarator,
          .identifier, .variableDeclarator, .identifier])) = true := by
    decide +kernel
  obtain ⟨tree, hparse, hkinds⟩ := exists_of_any htest
  exact ⟨tree, hparse, parse_esTree hparse, of_decide_eq_true hkinds⟩

end ScriptFeatures.Syntactic
