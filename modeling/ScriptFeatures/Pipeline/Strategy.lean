import ScriptFeatures.Table.Key

/-! The ways to compute features, and sets of them. -/

namespace ScriptFeatures.Pipeline

/-- A way to compute features: counting characters and calls, weighing terms, counting the nodes of
syntax trees. -/
inductive Strategy
  | statistical
  | lexical
  | syntactic
  deriving DecidableEq, Repr, Inhabited

namespace Strategy

def group : Strategy → Table.Group
  | .statistical => .statistical
  | .lexical => .lexical
  | .syntactic => .syntactic

/-- The strategy that adds the columns of a group. -/
def ofGroup : Table.Group → Strategy
  | .statistical => .statistical
  | .lexical => .lexical
  | .syntactic => .syntactic

/-- The name of a strategy in files: that of its group. -/
def label (s : Strategy) : String :=
  s.group.label

/-- The name of a strategy in messages. -/
def title : Strategy → String
  | .statistical => "Statistical"
  | .lexical => "Lexical"
  | .syntactic => "Syntactic"

def read : Json.Read Strategy :=
  Json.readName fun s => (Table.Group.ofLabel? s).map ofGroup

end Strategy

structure Strategies where
  statistical : Bool
  lexical : Bool
  syntactic : Bool
  deriving DecidableEq, Repr, Inhabited

namespace Strategies

def none : Strategies :=
  ⟨false, false, false⟩

def insert (set : Strategies) : Strategy → Strategies
  | .statistical => { set with statistical := true }
  | .lexical => { set with lexical := true }
  | .syntactic => { set with syntactic := true }

def ofList (list : List Strategy) : Strategies :=
  list.foldl insert none

/-- The strategies of a set in their order. -/
def toList (set : Strategies) : List Strategy :=
  (if set.statistical then [.statistical] else []) ++ (if set.lexical then [.lexical] else []) ++
    if set.syntactic then [.syntactic] else []

def toJson (set : Strategies) : Json.Value :=
  .array (set.toList.map fun s => .text s.label)

def read : Json.Read Strategies :=
  ofList <$> Json.listOf Strategy.read

end Strategies

end ScriptFeatures.Pipeline
