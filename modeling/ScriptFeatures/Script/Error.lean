import ScriptFeatures.Script.Token

/-! Why a text is not a script. -/

namespace ScriptFeatures.Script

/-- The rules beyond the grammar that a text can break. -/
inductive EarlyError
  | invalidTarget
  | invalidParameters
  | invalidConstructor
  | invalidClassKey
  | invalidTemplateEscape
  | missingInitializer
  | misplacedCoverDefault
  | mixedCoalesce
  | duplicatePrototype
  | duplicateDeclaration (name : Name)
  | duplicateParameter (name : Name)
  | duplicateLabel (label : Name)
  | duplicatePrivateName (name : Name)
  | undeclaredLabel (label : Name)
  | undeclaredPrivateName (name : Name)
  | misplacedJump
  | misplacedSuper
  | misplacedNewTarget
  | misplacedYield
  | misplacedAwait
  | misplacedArguments
  | reservedName (name : Name)
  | strictOctal
  | strictWith
  | strictDelete
  | strictDirective
  | privateDelete
  deriving DecidableEq, Repr, Inhabited

/-- Why a text is not a script: at some place it holds no token, or a token that the grammar does
not allow, or it breaks a rule beyond the grammar. `unfinished` says that the parser ran out of
fuel. -/
inductive ScriptError
  | unreadable
  | unexpected (t : Token)
  | early (e : EarlyError)
  | unfinished
  deriving DecidableEq, Repr, Inhabited

end ScriptFeatures.Script
