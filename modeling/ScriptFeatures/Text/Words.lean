import ScriptFeatures.Text.Lowercase
import ScriptFeatures.Text.WordClass

/-! The words of a text: its maximal runs of word characters that have two characters or more. -/

namespace ScriptFeatures.Text

/-- The maximal runs of characters of a class, in order. `run` is the run that the text goes on
with, reversed, and `done` holds the runs before it, the last first. -/
def runsOnto (inClass : Char → Bool) (done : List (List Char)) (run : List Char) :
    List Char → List (List Char)
  | [] => (if run.isEmpty then done else run.reverse :: done).reverse
  | c :: rest =>
    if inClass c then runsOnto inClass done (c :: run) rest
    else runsOnto inClass (if run.isEmpty then done else run.reverse :: done) [] rest

/-- The maximal runs of characters of a class, in order. -/
def runs (inClass : Char → Bool) (text : List Char) : List (List Char) :=
  runsOnto inClass [] [] text

def words (text : String) : List String :=
  ((runs isWord text.toList).filter (2 ≤ ·.length)).map String.ofList

/-- The words of a text, which is brought to lower case first when asked. -/
def tokenize (lower : Bool) (text : String) : List String :=
  words (if lower then lowercase text else text)

end ScriptFeatures.Text
