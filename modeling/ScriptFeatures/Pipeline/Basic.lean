import ScriptFeatures.Lexical.Columns
import ScriptFeatures.Pipeline.Bundle
import ScriptFeatures.Schema.Alignment
import ScriptFeatures.Statistical.Columns
import ScriptFeatures.Syntactic.Columns

/-! From samples to features. Fitting runs the chosen strategies on a batch and keeps what they
learned from it in a bundle; transforming applies a bundle to other samples, which yields exactly
the columns of its schema. -/

namespace ScriptFeatures.Pipeline

open Calendar (Moment)
open Config (PipelineConfig)
open Schema (ReferenceSchema)
open Syntactic (Limits)
open Table (FeatureTable TableError)

/-- Why features cannot be computed: a column cannot be added, or a bundle lacks what one of its
strategies needs. -/
inductive PipelineError
  | table (error : TableError)
  | missingArtifact (strategy : Strategy)
  deriving DecidableEq, Repr, Inhabited

def PipelineError.message : PipelineError → String
  | .table e => "table error: " ++ e.message
  | .missingArtifact s => "bundle has no fitted artifact for " ++ s.title

/-- What the strategies before have made of a batch: the table, and the vocabulary and the taxonomy
that were fitted. -/
structure Fitting where
  table : FeatureTable
  vectorizer : Option Lexical.Vectorizer
  taxonomy : Option (List Tree.NodeKind)

def Fitting.step (config : PipelineConfig) (f : Fitting) :
    Strategy → Except TableError Fitting
  | .statistical => do
    return { f with table := ← Statistical.extract f.table }
  | .lexical => do
    let (table, v) ← Lexical.extract config.lexical f.table
    return { f with table := table, vectorizer := some v }
  | .syntactic => do
    let (table, report) ← Syntactic.extract (.ofConfig config.syntactic) f.table
    return { f with table := table, taxonomy := some report.taxonomy }

/-- Runs the chosen strategies on a batch and bundles what they learned. -/
def fit (config : PipelineConfig) (now : Moment) (t : FeatureTable) :
    Except PipelineError (FeatureTable × Bundle) := do
  let f ← (config.strategies.toList.foldlM (Fitting.step config) ⟨t, none, none⟩).mapError .table
  return (f.table, .new now config.strategies f.vectorizer f.taxonomy (.ofTable f.table none))

def applyStep (limits : Limits) (bundle : Bundle) (t : FeatureTable) :
    Strategy → Except PipelineError FeatureTable
  | .statistical => (Statistical.extract t).mapError .table
  | .lexical =>
    match bundle.vectorizer with
    | none => .error (.missingArtifact .lexical)
    | some v => (Lexical.apply v t).mapError .table
  | .syntactic =>
    match bundle.taxonomy with
    | none => .error (.missingArtifact .syntactic)
    | some taxonomy => ((Syntactic.applyTaxonomy limits taxonomy t).map (·.1)).mapError .table

/-- Applies a bundle to a table. Of the settings only the limits of parsing are used. -/
def transform (config : PipelineConfig) (bundle : Bundle) (t : FeatureTable) :
    Except PipelineError FeatureTable := do
  let t ← bundle.strategies.toList.foldlM (applyStep (.ofConfig config.syntactic) bundle) t
  return bundle.schema.project t

end ScriptFeatures.Pipeline
