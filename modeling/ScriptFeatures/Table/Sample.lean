import ScriptFeatures.Json.Document
import ScriptFeatures.Json.Record
import ScriptFeatures.Json.Write
import ScriptFeatures.Text.Lines

/-! Samples: scripts with optional labels. They are read from files with one JSON object a line;
white space makes blank lines, which are passed over but counted. -/

namespace ScriptFeatures.Table

open Json (Value Read Fault)

/-- A script with its file name and labels as far as they are known. -/
structure Sample where
  script : Option String
  fileName : Option String
  malicious : Option Bool
  obfuscated : Option Bool
  deriving DecidableEq, Repr, Inhabited

namespace Sample

def blank : Sample :=
  ⟨none, none, none, none⟩

def ofScript (text : String) : Sample :=
  { blank with script := some text }

/-- The text of the script; a missing one is empty. -/
def text (s : Sample) : String :=
  s.script.getD ""

/-- The members of a sample as JSON. The script is always among them, the others if known. -/
def members (s : Sample) : List (String × Value) :=
  ("js", s.script.elim .null .text) ::
    (s.fileName.toList.map fun name => ("js_filename", .text name)) ++
    (s.malicious.toList.map fun b => ("malicious", .boolean b)) ++
    (s.obfuscated.toList.map fun b => ("obfuscated", .boolean b))

def toJson (s : Sample) : Value :=
  .object s.members

end Sample

/-! ## Reading -/

/-- A label by its text: `1` and `true` are true, `0` and `false` are false, whatever the case of
their letters and the white space around them. -/
def labelOfText? (s : String) : Option Bool :=
  let word := String.ofList ((Text.trim s.toList).map Char.toLower)
  if word == "1" || word == "true" then some true
  else if word == "0" || word == "false" then some false
  else none

/-- The label that a value gives: a truth value itself, a number unless it is zero, a text by
`labelOfText?`. No other value gives one. -/
def labelOf? : Value → Option Bool
  | .boolean b => some b
  | .number n => some (n.toFloat != 0)
  | .text s => labelOfText? s
  | _ => none

/-- Reads a label. The sample around it is one of the containers that may be open. -/
def readLabel : Read (Option Bool) :=
  labelOf? <$> Json.readValue (Json.depthLimit - 1)

namespace Sample

/-- The fields of a sample. None of them has to be there. -/
def fields : List (Json.Field Sample) :=
  [.defaulted "js" (Json.optional Json.readText) fun x s => { s with script := x },
    .defaulted "js_filename" (Json.optional Json.readText) fun x s => { s with fileName := x },
    .defaulted "malicious" readLabel fun x s => { s with malicious := x },
    .defaulted "obfuscated" readLabel fun x s => { s with obfuscated := x }]

def read : Read Sample :=
  Json.record fields blank

end Sample

/-- Why a file of samples cannot be read: a line, counted from one, is no sample, or it is no text
at all. -/
inductive SampleError
  | badLine (line : Nat) (fault : Fault)
  | notText
  deriving DecidableEq, Repr, Inhabited

def SampleError.message : SampleError → String
  | .badLine line fault => s!"invalid sample on line {line}: {fault.category}"
  | .notText => "io error: stream did not contain valid UTF-8"

/-- Reads the line with the given number; a blank one holds no sample. -/
def readLine (number : Nat) (line : List UInt8) : Except SampleError (Option Sample) :=
  match Text.decode? line with
  | none => .error .notText
  | some text =>
    if text.toList.all Text.isBlank then .ok none
    else
      match Sample.read.whole text.toList with
      | .ok s => .ok (some s)
      | .error fault => .error (.badLine number fault)

/-- Reads the lines from a number on; `done` holds the samples before, the last first. -/
def readLines (done : List Sample) : Nat → List (List UInt8) → Except SampleError (List Sample)
  | _, [] => .ok done.reverse
  | number, line :: rest => do
    let found ← readLine number line
    readLines (found.toList ++ done) (number + 1) rest

/-- Reads a file of samples, up to the first line that cannot be read. -/
def readSamples (bytes : List UInt8) : Except SampleError (List Sample) :=
  readLines [] 1 (Text.lines bytes)

end ScriptFeatures.Table
