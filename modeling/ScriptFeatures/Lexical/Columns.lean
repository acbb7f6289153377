import ScriptFeatures.Lexical.Vectorizer
import ScriptFeatures.Table.Basic

/-! The lexical columns of a table: one for each term of a vocabulary. -/

namespace ScriptFeatures.Lexical

open Table (Column FeatureTable TableError)

/-- The columns of a vocabulary for some texts. -/
def Vectorizer.columns (v : Vectorizer) (texts : List String) : List Column :=
  let rows := (v.transform texts).map List.toArray
  v.terms.zipIdx.map fun (term, j) => ⟨⟨.lexical, term⟩, rows.map (·.getD j 0)⟩

/-- Adds the columns of a fitted vocabulary to a table. -/
def apply (v : Vectorizer) (t : FeatureTable) : Except TableError FeatureTable :=
  t.pushAll (v.columns t.texts)

/-- Fits a vocabulary on a table and adds its columns. -/
def extract (config : Config.LexicalConfig) (t : FeatureTable) :
    Except TableError (FeatureTable × Vectorizer) := do
  let v := Vectorizer.fit config t.texts
  return (← apply v t, v)

end ScriptFeatures.Lexical
