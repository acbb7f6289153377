import ScriptFeatures.Schema.Basic
import ScriptFeatures.Text.Tally

/-! Bringing the columns of a batch in line with those of a reference table. Only the columns of a
scope are compared. A batch is either restricted to the columns that both have, or the side with
surplus columns loses them, the batch before the reference. -/

namespace ScriptFeatures.Schema

open Table (Key Group FeatureTable)

/-- How columns are brought in line. -/
inductive Policy
  | intersect
  | preferBatch
  deriving DecidableEq, Repr, Inhabited

namespace Policy

def label : Policy → String
  | .intersect => "intersect"
  | .preferBatch => "prefer_batch"

def ofLabel? : String → Option Policy
  | "intersect" => some .intersect
  | "prefer_batch" => some .preferBatch
  | _ => none

def read : Json.Read Policy :=
  Json.readName ofLabel?

end Policy

/-- The two tables. -/
inductive Side
  | batch
  | reference
  deriving DecidableEq, Repr, Inhabited

def Side.label : Side → String
  | .batch => "batch"
  | .reference => "reference"

/-- The result: a table made from one side, the columns it lost, and the columns of the other side
that it does not have. Both lists of keys increase. -/
structure Alignment where
  side : Side
  table : FeatureTable
  dropped : List Key
  missing : List Key
  deriving Repr, Inhabited

/-- A policy with the scope of the columns that it compares. -/
structure Aligner where
  policy : Policy
  scope : Option Group
  deriving DecidableEq, Repr, Inhabited

namespace Aligner

/-- The keys in scope that the first table has and the second lacks, in increasing order. -/
def surplus (a : Aligner) (t u : FeatureTable) : List Key :=
  let others := u.keysIn a.scope
  Text.distinct ((t.keysIn a.scope).filter fun key => !others.contains key)

/-- Drops the surplus of the batch; if there is none, that of the reference. -/
def removeSurplus (a : Aligner) (batch reference : FeatureTable) : Alignment :=
  let extra := a.surplus batch reference
  let lacking := a.surplus reference batch
  if extra.isEmpty then ⟨.reference, reference.drop lacking, lacking, []⟩
  else ⟨.batch, batch.drop extra, extra, lacking⟩

/-- Restricts the batch to the columns that both have, in the order of the reference. The columns
out of scope stay and come first. -/
def intersect (a : Aligner) (batch reference : FeatureTable) : Alignment :=
  let own := batch.keysIn a.scope
  let outside := batch.keys.filter fun key => !FeatureTable.inScope a.scope key
  let shared := (reference.keysIn a.scope).filter own.contains
  ⟨.batch, batch.project (outside ++ shared), a.surplus batch reference,
    a.surplus reference batch⟩

def align (a : Aligner) (batch reference : FeatureTable) : Alignment :=
  match a.policy with
  | .intersect => a.intersect batch reference
  | .preferBatch => a.removeSurplus batch reference

end Aligner

/-- A table with exactly the columns of a schema; missing ones are zeros. -/
def ReferenceSchema.project (s : ReferenceSchema) (t : FeatureTable) : FeatureTable :=
  t.project s.columns

end ScriptFeatures.Schema
