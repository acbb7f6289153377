import ScriptFeatures.Syntactic.Parse
import ScriptFeatures.Table.Basic

/-! The syntactic columns of a table: how many nodes of each kind the trees of the scripts have. A
row whose script has no tree keeps its place and reads as zeros.

The kinds that get a column form the taxonomy. It is either given, or the union of the kinds that
occur in the batch. -/

namespace ScriptFeatures.Syntactic

open Table (Column FeatureTable TableError)
open ScriptFeatures.Tree (NodeKind)

/-- The numbers of nodes of each kind that occurs. -/
abbrev NodeCounts : Type := List (NodeKind × Nat)

/-- The numbers of nodes of a script by kind. -/
def countsOf (limits : Limits) (source : String) : Except ParseError NodeCounts :=
  (parse limits source).map (·.counts)

/-- The number of nodes of one kind. -/
def countIn (kind : NodeKind) (counts : NodeCounts) : Nat :=
  (counts.lookup kind).getD 0

/-- What extraction met: the number of rows and of those with a tree, the other rows with their
errors in order, the taxonomy, and the kinds that occur outside of it. -/
structure Report where
  rows : Nat
  parsed : Nat
  failures : List (Nat × ParseError)
  taxonomy : List NodeKind
  unseen : List NodeKind
  deriving DecidableEq, Repr, Inhabited

/-- The kinds that occur in some row, in declaration order. -/
def kindsOf (results : List (Except ParseError NodeCounts)) : List NodeKind :=
  NodeKind.all.filter fun kind => results.any fun
    | .ok counts => counts.any (·.1 == kind)
    | .error _ => false

def hasTree : Except ParseError NodeCounts → Bool
  | .ok _ => true
  | .error _ => false

/-- The error of a row without a tree, with the number of the row. -/
def failureOf : Except ParseError NodeCounts × Nat → Option (Nat × ParseError)
  | (.ok _, _) => none
  | (.error e, row) => some (row, e)

def reportOf (results : List (Except ParseError NodeCounts)) (taxonomy : List NodeKind) :
    Report where
  rows := results.length
  parsed := results.countP hasTree
  failures := results.zipIdx.filterMap failureOf
  taxonomy := taxonomy
  unseen := (kindsOf results).filter fun kind => !taxonomy.contains kind

/-- The value of a row in the column of a kind. -/
def valueOf (kind : NodeKind) : Except ParseError NodeCounts → Float
  | .ok counts => (countIn kind counts).toFloat
  | .error _ => 0

/-- The columns of a taxonomy for some rows. -/
def columns (results : List (Except ParseError NodeCounts)) (taxonomy : List NodeKind) :
    List Column :=
  taxonomy.map fun kind => ⟨⟨.syntactic, kind.label⟩, results.map (valueOf kind)⟩

/-- Adds the columns of a taxonomy for parsed rows. -/
def append (t : FeatureTable) (results : List (Except ParseError NodeCounts))
    (taxonomy : List NodeKind) : Except TableError (FeatureTable × Report) := do
  return (← t.pushAll (columns results taxonomy), reportOf results taxonomy)

/-- Adds the columns of a given taxonomy. -/
def applyTaxonomy (limits : Limits) (taxonomy : List NodeKind) (t : FeatureTable) :
    Except TableError (FeatureTable × Report) :=
  append t (t.texts.map (countsOf limits)) taxonomy

/-- Adds a column for each kind that occurs in the table. -/
def extract (limits : Limits) (t : FeatureTable) :
    Except TableError (FeatureTable × Report) :=
  let results := t.texts.map (countsOf limits)
  append t results (kindsOf results)

end ScriptFeatures.Syntactic
