import ScriptFeatures.Config.File
import ScriptFeatures.Json.Write
import ScriptFeatures.Pipeline.Basic

/-! The command line. `fit` computes the features of a file of samples and saves the bundle;
`extract` applies a saved bundle. Both write one line of JSON for each row, and a summary. -/

namespace ScriptFeatures.Run

open Calendar (Moment)
open Config (PipelineConfig)
open Pipeline (Bundle BundleError PipelineError)
open Table (FeatureTable SampleError)

/-- Files by name; a name without a file has none. -/
abbrev Files : Type :=
  String → Option (List UInt8)

inductive RunError
  | usage
  | unreadable (file : String)
  | samples (error : SampleError)
  | pipeline (error : PipelineError)
  | bundle (error : BundleError)
  deriving DecidableEq, Repr, Inhabited

def usage : String :=
  "usage: jsguard-features <fit|extract> <samples.jsonl> <bundle.json>"

def RunError.message : RunError → String
  | .usage => Run.usage
  | .unreadable file => "io error: cannot read " ++ file
  | .samples e => e.message
  | .pipeline e => e.message
  | .bundle e => e.message

/-- A value on a line of its own. -/
def emit (v : Json.Value) : String :=
  v.compact ++ "\n"

structure Summary where
  time : String
  command : String
  rows : Nat
  columns : Nat
  fingerprint : String
  bundle : Option String
  deriving DecidableEq, Repr, Inhabited

/-- A summary as JSON; the bundle is left out if there is none. -/
def Summary.toJson (s : Summary) : Json.Value :=
  .object ([("ts", .text s.time), ("command", .text s.command), ("rows", .natural s.rows),
    ("columns", .natural s.columns), ("fingerprint", .text s.fingerprint)] ++
    s.bundle.toList.map fun name => ("bundle", .text name))

/-- What a successful run writes: the rows to standard output, the bundle to its file if it was
fitted, and the summary at the end. -/
structure Outcome where
  output : List String
  bundle : Option String
  summary : Summary
  deriving Inhabited

def loadTable (files : Files) (name : String) : Except RunError FeatureTable :=
  match files name with
  | none => .error (.unreadable name)
  | some bytes => ((Table.readSamples bytes).map .ofSamples).mapError .samples

def loadBundle (files : Files) (name : String) : Except RunError Bundle :=
  match files name with
  | none => .error (.unreadable name)
  | some bytes => (Bundle.loadBytes bytes).mapError .bundle

/-- A line of JSON for each row of a table. -/
def rowLines (t : FeatureTable) : List String :=
  (List.range t.size).filterMap fun row => (t.row? row).map emit

def summarize (now : Moment) (command name : String) (t : FeatureTable) (b : Bundle) : Summary :=
  ⟨now.text "+00:00", command, t.size, t.columns.length, b.fingerprint, some name⟩

/-- Runs the program. The samples are read before the command is looked at. -/
def run (config : PipelineConfig) (files : Files) (now : Moment) (arguments : List String) :
    Except RunError Outcome :=
  match arguments with
  | [command, samples, name] => do
    let t ← loadTable files samples
    if command = "fit" then
      let (t, b) ← (Pipeline.fit config now t).mapError .pipeline
      return ⟨rowLines t, some b.save, summarize now command name t b⟩
    else if command = "extract" then
      let b ← loadBundle files name
      let t ← (Pipeline.transform config b t).mapError .pipeline
      return ⟨rowLines t, none, summarize now command name t b⟩
    else throw .usage
  | _ => throw .usage

end ScriptFeatures.Run
