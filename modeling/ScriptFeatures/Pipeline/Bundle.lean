import ScriptFeatures.Calendar.Moment
import ScriptFeatures.Lexical.File
import ScriptFeatures.Pipeline.Strategy
import ScriptFeatures.Schema.Basic
import ScriptFeatures.Tree.Kind

/-! Bundles: what fitting leaves behind, kept next to a trained classifier. A bundle is saved as
JSON and carries a version and the fingerprint of its schema, which loading checks. -/

namespace ScriptFeatures.Pipeline

open Calendar (Moment)
open Json (Read Value Fault)
open Lexical (Vectorizer)
open Schema (ReferenceSchema)
open ScriptFeatures.Tree (NodeKind)

/-- What fitting leaves behind: the strategies, the vocabulary and the taxonomy as far as the
strategies need them, and the schema of the resulting table with its fingerprint. -/
structure Bundle where
  version : Nat
  createdAt : Moment
  strategies : Strategies
  vectorizer : Option Vectorizer
  taxonomy : Option (List NodeKind)
  schema : ReferenceSchema
  fingerprint : String
  deriving Inhabited

/-- The version of bundles that can be read. -/
def bundleVersion : Nat := 1

inductive BundleError
  | notText
  | invalid (fault : Fault)
  | unsupportedVersion (version : Nat)
  | fingerprintMismatch (stored computed : String)
  deriving DecidableEq, Repr, Inhabited

def BundleError.message : BundleError → String
  | .notText => "io error: stream did not contain valid UTF-8"
  | .invalid fault => "invalid bundle: " ++ fault.category
  | .unsupportedVersion version => s!"unsupported bundle version {version}"
  | .fingerprintMismatch stored computed =>
    s!"schema fingerprint mismatch: stored {stored}, computed {computed}"

def readKind : Read NodeKind :=
  Json.readName NodeKind.ofLabel?

def readMoment : Read Moment :=
  Json.scalar fun
    | .text s => Moment.parse? s
    | _ => none

namespace Bundle

/-- A bundle of the current version with the fingerprint of its schema. -/
def new (createdAt : Moment) (strategies : Strategies) (vectorizer : Option Vectorizer)
    (taxonomy : Option (List NodeKind)) (schema : ReferenceSchema) : Bundle :=
  ⟨bundleVersion, createdAt, strategies, vectorizer, taxonomy, schema, schema.fingerprint⟩

def toJson (b : Bundle) : Value :=
  .object ([("version", .natural b.version), ("created_at", .text (b.createdAt.text "Z")),
    ("strategies", b.strategies.toJson)] ++
    (b.vectorizer.toList.map fun v => ("vectorizer", v.toJson)) ++
    (b.taxonomy.toList.map fun kinds =>
      ("taxonomy", .array (kinds.map fun kind => .text kind.label))) ++
    [("schema", b.schema.toJson), ("fingerprint", .text b.fingerprint)])

/-- Reads a bundle, without any checks. -/
def read : Read Bundle :=
  Json.record
    [.needed "version" (Json.readNatural UInt32.size) fun x b => { b with version := x },
      .needed "created_at" readMoment fun x b => { b with createdAt := x },
      .needed "strategies" Strategies.read fun x b => { b with strategies := x },
      .defaulted "vectorizer" (Json.optional Vectorizer.read) fun x b =>
        { b with vectorizer := x },
      .defaulted "taxonomy" (Json.optional (Json.listOf readKind)) fun x b =>
        { b with taxonomy := x },
      .needed "schema" ReferenceSchema.read fun x b => { b with schema := x },
      .needed "fingerprint" Json.readText fun x b => { b with fingerprint := x }]
    ⟨0, default, .none, none, none, ⟨[]⟩, ""⟩

/-- The text of a saved bundle. -/
def save (b : Bundle) : String :=
  b.toJson.indented

/-- Loads a bundle from its text. -/
def load (text : String) : Except BundleError Bundle :=
  match read.whole text.toList with
  | .error fault => .error (.invalid fault)
  | .ok b =>
    if b.version ≠ bundleVersion then .error (.unsupportedVersion b.version)
    else if b.schema.fingerprint ≠ b.fingerprint then
      .error (.fingerprintMismatch b.fingerprint b.schema.fingerprint)
    else .ok { b with vectorizer := b.vectorizer.map Vectorizer.index }

/-- Loads a bundle from the bytes of its file. -/
def loadBytes (bytes : List UInt8) : Except BundleError Bundle :=
  match Text.decode? bytes with
  | none => .error .notText
  | some text => load text

end Bundle

end ScriptFeatures.Pipeline
