import Std.Data.HashMap
import ScriptFeatures.Config.Basic
import ScriptFeatures.Text.Tally
import ScriptFeatures.Text.Words

/-! Weighing the terms of documents.

Fitting chooses a vocabulary from a collection of documents and gives each term a weight that falls
with the number of documents that contain it. Transforming turns a document into one number for each
term: its weight times a measure of how often it occurs, scaled so that the squares of a row add up
to one. A fitted vocabulary can be kept and applied to documents one by one. -/

namespace ScriptFeatures.Lexical

/-- A fitted vocabulary. `terms` increase, `idf` holds their weights, `documents` is the number of
documents it was fitted on. `lookup` gives the place of a term; it is not saved, and without it
terms are found by bisection. -/
structure Vectorizer where
  terms : List String
  idf : List Float
  sublinear : Bool
  lowercase : Bool
  documents : Nat
  lookup : Std.HashMap String Nat

namespace Vectorizer

/-- A vocabulary without terms. -/
def blank : Vectorizer :=
  ⟨[], [], false, false, 0, ∅⟩

instance : Inhabited Vectorizer := ⟨blank⟩

/-- The vocabulary with the places of its terms looked up in a table. -/
def index (v : Vectorizer) : Vectorizer :=
  { v with lookup := v.terms.zipIdx.foldl (fun table entry => table.insert entry.1 entry.2) ∅ }

/-- The number of documents that contain each of the terms that occur, in increasing order. -/
def documentCounts (lowercase : Bool) (docs : List String) : List (String × Nat) :=
  Text.tally (docs.flatMap fun doc => Text.distinct (Text.tokenize lowercase doc))

/-- The weight of a term that stands in `count` of `documents` documents. -/
def weight (documents count : Nat) : Float :=
  ((1.0 + documents.toFloat) / (1.0 + count.toFloat)).log + 1.0

def fit (config : Config.LexicalConfig) (docs : List String) : Vectorizer :=
  let size := docs.length
  let most := config.maximum * size.toFloat
  let kept := (documentCounts config.lowercase docs).filter fun entry =>
    decide (config.minimum ≤ entry.2) && entry.2.toFloat ≤ most
  index ⟨kept.map (·.1), kept.map fun entry => weight size entry.2, config.sublinear,
    config.lowercase, size, ∅⟩

/-! ## Finding terms -/

/-- Narrows `size` places from `base` on down to one: the last whose term is not above `term`, if
the terms increase. `steps` bounds the number of halvings. -/
def bisect (terms : Array String) (term : String) : Nat → Nat → Nat → Nat
  | 0, base, _ => base
  | steps + 1, base, size =>
    if size ≤ 1 then base
    else
      let half := size / 2
      let middle := base + half
      bisect terms term steps (if term < terms.getD middle "" then base else middle) (size - half)

/-- The place of a term by bisection. -/
def search? (terms : Array String) (term : String) : Option Nat :=
  let place := bisect terms term terms.size 0 terms.size
  if terms[place]? = some term then some place else none

/-- The place of a term among given terms: by the table if it has an entry for each of them,
otherwise by bisection. -/
def placeIn? (terms : Array String) (lookup : Std.HashMap String Nat) (term : String) :
    Option Nat :=
  if lookup.size = terms.size then lookup[term]? else search? terms term

def place? (v : Vectorizer) (term : String) : Option Nat :=
  placeIn? v.terms.toArray v.lookup term

/-! ## Transforming -/

/-- How often each term occurs in a document. -/
def termCounts (v : Vectorizer) (terms : Array String) (doc : String) : Array Nat :=
  (Text.tokenize v.lowercase doc).foldl
    (fun counts token =>
      match placeIn? terms v.lookup token with
      | some j => counts.modify j (· + 1)
      | none => counts)
    (Array.replicate terms.size 0)

/-- The measure of a number of occurrences: the number itself or one more than its logarithm. -/
def measure (sublinear : Bool) (count : Nat) : Float :=
  if sublinear then 1.0 + count.toFloat.log else count.toFloat

/-- Scales numbers so that their squares add up to one, unless they are all zero. -/
def normalize (cells : List Float) : List Float :=
  let norm := (cells.foldl (fun sum x => sum + x * x) 0).sqrt
  if norm > 0 then cells.map (· / norm) else cells

/-- The numbers of a document from the counts of its terms. -/
def rowOfCounts (v : Vectorizer) (weights : Array Float) (counts : List Nat) : List Float :=
  normalize (counts.zipIdx.map fun (count, j) =>
    if count = 0 then 0 else measure v.sublinear count * weights.getD j 0)

/-- The numbers of documents, row by row. -/
def transform (v : Vectorizer) (docs : List String) : List (List Float) :=
  let terms := v.terms.toArray
  let weights := v.idf.toArray
  docs.map fun doc => v.rowOfCounts weights (v.termCounts terms doc).toList

end Vectorizer

end ScriptFeatures.Lexical
