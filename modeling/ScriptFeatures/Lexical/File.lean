import ScriptFeatures.Json.Record
import ScriptFeatures.Json.Write
import ScriptFeatures.Lexical.Vectorizer

/-! Vocabularies as JSON. The table of places is not part of the text. -/

namespace ScriptFeatures.Lexical.Vectorizer

open Json (Read Value)

def toJson (v : Vectorizer) : Value :=
  .object [("terms", .array (v.terms.map .text)), ("idf", .array (v.idf.map .real)),
    ("sublinear_tf", .boolean v.sublinear), ("lowercase", .boolean v.lowercase),
    ("documents", .natural v.documents)]

/-- Reads a vocabulary, without the table of places. -/
def read : Read Vectorizer :=
  Json.record
    [.needed "terms" (Json.listOf Json.readText) fun x v => { v with terms := x },
      .needed "idf" (Json.listOf Json.readReal) fun x v => { v with idf := x },
      .needed "sublinear_tf" Json.readBoolean fun x v => { v with sublinear := x },
      .needed "lowercase" Json.readBoolean fun x v => { v with lowercase := x },
      .needed "documents" Json.readWord fun x v => { v with documents := x }]
    blank

end ScriptFeatures.Lexical.Vectorizer
