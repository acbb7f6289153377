import ScriptFeatures.Text.Tally

/-! Names from the interface of browsers whose use is counted, in four buckets. A name is counted
wherever it stands, also inside a longer word, so `escape` is counted inside `unescape`. -/

namespace ScriptFeatures.Statistical

/-- What the counted names are for. -/
inductive KeywordBucket
  | stringOperation
  | encoding
  | urlRedirection
  | specificBehavior
  deriving DecidableEq, Repr, Inhabited

namespace KeywordBucket

def all : List KeywordBucket :=
  [.stringOperation, .encoding, .urlRedirection, .specificBehavior]

def label : KeywordBucket → String
  | .stringOperation => "string_operation"
  | .encoding => "encoding"
  | .urlRedirection => "url_redirection"
  | .specificBehavior => "specific_behavior"

/-- The names that a bucket counts. -/
def keywords : KeywordBucket → List String
  | .stringOperation => ["substring", "charAt", "split", "concat", "slice", "substr"]
  | .encoding => ["escape", "unescape", "string", "fromCharCode"]
  | .urlRedirection =>
    ["setTimeout", "location.reload", "location.replace", "document.URL", "document.location",
      "document.referrer"]
  | .specificBehavior =>
    ["eval", "setTime", "setInterval", "ActiveXObject", "createElement", "document.write",
      "document.writeln", "document.replaceChildren"]

/-- The occurrences of all names of a bucket in a text, each name counted without overlaps with
itself. -/
def count (bucket : KeywordBucket) (text : List Char) : Nat :=
  bucket.keywords.foldl (fun n word => n + Text.occurrences word.toList text) 0

end KeywordBucket

end ScriptFeatures.Statistical
