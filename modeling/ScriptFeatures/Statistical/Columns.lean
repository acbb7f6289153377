import ScriptFeatures.Statistical.Counters
import ScriptFeatures.Table.Basic

/-! The statistical columns of a table. Their names and order are fixed and have a version: a
classifier that was trained on one version does not fit another. -/

namespace ScriptFeatures.Statistical

open Table (Key Column FeatureTable TableError)

/-- The version of the columns. -/
def layoutVersion : Nat := 1

/-- The names of the columns in order. -/
def layout : List String :=
  (Counters.ofChars []).features.map (·.1)

def keys : List Key :=
  layout.map fun name => ⟨.statistical, name⟩

/-- The statistical columns of some texts. -/
def columns (texts : List String) : List Column :=
  let rows := texts.map fun text => ((Counters.ofText text).features.map (·.2)).toArray
  keys.zipIdx.map fun (key, i) => ⟨key, rows.map (·.getD i 0)⟩

def extract (t : FeatureTable) : Except TableError FeatureTable :=
  t.pushAll (columns t.texts)

end ScriptFeatures.Statistical
