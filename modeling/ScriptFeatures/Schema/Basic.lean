import ScriptFeatures.Digest.Sha256
import ScriptFeatures.Table.Basic

/-! Reference schemas: the columns a trained classifier expects, in order. A schema is recognised by
its fingerprint, the digest of its keys, each on a line of its own. -/

namespace ScriptFeatures.Schema

open Table (Key Group FeatureTable)

/-- The columns that a classifier expects. -/
structure ReferenceSchema where
  columns : List Key
  deriving DecidableEq, Repr, Inhabited

namespace ReferenceSchema

/-- The columns of a table in a scope. -/
def ofTable (t : FeatureTable) (scope : Option Group) : ReferenceSchema :=
  ⟨t.keysIn scope⟩

def size (s : ReferenceSchema) : Nat :=
  s.columns.length

/-- The bytes whose digest is the fingerprint: the text of each key and a line feed. -/
def bytes (s : ReferenceSchema) : List UInt8 :=
  s.columns.flatMap fun key => Text.encode key.text ++ [10]

def fingerprint (s : ReferenceSchema) : String :=
  Digest.sha256 s.bytes

def toJson (s : ReferenceSchema) : Json.Value :=
  .object [("columns", .array (s.columns.map Key.toJson))]

def read : Json.Read ReferenceSchema :=
  Json.record [.needed "columns" (Json.listOf Key.read) fun keys _ => ⟨keys⟩] default

end ReferenceSchema

end ScriptFeatures.Schema
