import Std.Data.HashMap
import ScriptFeatures.Table.Key
import ScriptFeatures.Table.Sample
import ScriptFeatures.Text.Tally

/-! Feature tables: one row for each sample, one column of numbers for each key.

Columns are found through an index that maps a key to the place of its column. Adding a column adds
its entry; whatever else changes the columns builds the index anew. Where several columns have one
key, which only a projection onto a list with repetitions brings about, the index knows the last of
them. -/

namespace ScriptFeatures.Table

structure Column where
  key : Key
  values : List Float
  deriving Repr, Inhabited

/-- The index of some columns, entered one after the other. -/
def indexOf (columns : List Column) : Std.HashMap Key Nat :=
  columns.zipIdx.foldl (fun index entry => index.insert entry.1.key entry.2) ∅

theorem indexOf_concat (columns : List Column) (c : Column) :
    indexOf (columns ++ [c]) = (indexOf columns).insert c.key columns.length := by
  simp [indexOf, List.zipIdx_append]

/-- Samples with feature columns and the index of the columns. -/
structure FeatureTable where
  samples : List Sample
  columns : List Column
  index : Std.HashMap Key Nat := indexOf columns
  index_eq : index = indexOf columns := by rfl
  deriving Repr

/-- Why a column cannot be added. -/
inductive TableError
  | duplicateColumn (key : Key)
  | lengthMismatch (key : Key) (rows values : Nat)
  deriving DecidableEq, Repr, Inhabited

def TableError.message : TableError → String
  | .duplicateColumn key => s!"column {key.text} already exists"
  | .lengthMismatch key rows values =>
    s!"column {key.text} has {values} values, table has {rows} rows"

namespace FeatureTable

/-- A table without columns. -/
def ofSamples (samples : List Sample) : FeatureTable :=
  { samples, columns := [], index := ∅ }

instance : Inhabited FeatureTable := ⟨ofSamples []⟩

def size (t : FeatureTable) : Nat :=
  t.samples.length

def texts (t : FeatureTable) : List String :=
  t.samples.map Sample.text

def keys (t : FeatureTable) : List Key :=
  t.columns.map Column.key

/-- Whether a key belongs to a scope, which is one group or all of them. -/
def inScope (scope : Option Group) (key : Key) : Bool :=
  scope.all (key.group == ·)

def keysIn (t : FeatureTable) (scope : Option Group) : List Key :=
  t.keys.filter (inScope scope)

def contains (t : FeatureTable) (key : Key) : Bool :=
  t.index.contains key

def position? (t : FeatureTable) (key : Key) : Option Nat :=
  t.index[key]?

def column? (t : FeatureTable) (key : Key) : Option (List Float) :=
  ((t.position? key).bind (t.columns[·]?)).map Column.values

def value? (t : FeatureTable) (row : Nat) (key : Key) : Option Float := do
  let values ← t.column? key
  values[row]?

/-- Adds a column at the end. Its key has to be new, and it has one value for each row. -/
def push (t : FeatureTable) (key : Key) (values : List Float) : Except TableError FeatureTable :=
  if t.contains key then .error (.duplicateColumn key)
  else if values.length ≠ t.size then .error (.lengthMismatch key t.size values.length)
  else
    .ok
      { samples := t.samples
        columns := t.columns ++ [⟨key, values⟩]
        index := t.index.insert key t.columns.length
        index_eq := by rw [t.index_eq, indexOf_concat] }

def pushAll (t : FeatureTable) : List Column → Except TableError FeatureTable
  | [] => .ok t
  | c :: cs => do
    let t ← t.push c.key c.values
    t.pushAll cs

/-- Removes the columns with the given keys. -/
def drop (t : FeatureTable) (keys : List Key) : FeatureTable :=
  if keys.isEmpty then t
  else { samples := t.samples, columns := t.columns.filter fun c => !keys.contains c.key }

def zeros (t : FeatureTable) : List Float :=
  List.replicate t.size 0

/-- The values of the last column with a key, found in the columns themselves. -/
def values? (t : FeatureTable) (key : Key) : Option (List Float) :=
  (t.columns.reverse.find? (·.key == key)).map Column.values

/-- The columns for a list of keys; `used` are the keys before them. A key that was used before, or
that no column has, gets a column of zeros. -/
def columnsFor (t : FeatureTable) (used : List Key) : List Key → List Column
  | [] => []
  | key :: keys =>
    let values := if used.contains key then t.zeros else (t.values? key).getD t.zeros
    ⟨key, values⟩ :: t.columnsFor (key :: used) keys

/-- Replaces the columns by one for each of the given keys, in their order. -/
def project (t : FeatureTable) (keys : List Key) : FeatureTable :=
  { samples := t.samples, columns := t.columnsFor [] keys }

/-- The values of the given columns row by row, rounded to binary32. A column that is not there
reads as zeros. -/
def matrix (t : FeatureTable) (keys : List Key) : List (List Float32) :=
  let columns := keys.map fun key => ((t.column? key).getD []).toArray
  (List.range t.size).map fun row =>
    columns.map fun values => ((values[row]?).getD 0).toFloat32

/-- The members of a row: those of its sample, and one for each column under the text of its key. -/
def rowMembers (t : FeatureTable) (row : Nat) (sample : Sample) : List (String × Json.Value) :=
  sample.members ++ t.columns.map fun c => (c.key.text, .real (c.values.getD row 0))

/-- A row as a JSON object. -/
def row? (t : FeatureTable) (row : Nat) : Option Json.Value :=
  t.samples[row]?.map fun sample => .object (Json.Value.collect (t.rowMembers row sample))

/-- Whether two tables have the same samples and the same columns, numbers being compared as
numbers: zeros of either sign are the same, and what is not a number differs from everything. -/
def same (t u : FeatureTable) : Bool :=
  t.samples == u.samples && t.columns.length == u.columns.length &&
    (t.columns.zip u.columns).all fun (c, d) => c.key == d.key && c.values == d.values

end FeatureTable

end ScriptFeatures.Table
