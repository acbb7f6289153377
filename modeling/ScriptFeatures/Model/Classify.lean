import ScriptFeatures.Pipeline.Basic

/-! Classifying scripts. The classifier is trained elsewhere; here it is a function from the matrix
of features to one prediction for each row, which may fail. -/

namespace ScriptFeatures.Model

open Config (PipelineConfig)
open Pipeline (Bundle PipelineError)
open Table (FeatureTable Sample)

/-- What a classifier takes a script for. -/
inductive Verdict
  | benign
  | malicious
  deriving DecidableEq, Repr, Inhabited

namespace Verdict

/-- The verdict of a prediction: zero is benign, any other number malicious. -/
def ofPrediction (x : Float32) : Verdict :=
  if x == 0 then .benign else .malicious

def label : Verdict → String
  | .benign => "0"
  | .malicious => "1"

def name : Verdict → String
  | .benign => "benign"
  | .malicious => "malicious"

end Verdict

/-- A trained classifier. It gets the features row by row. -/
abbrev Classifier : Type :=
  List (List Float32) → Except String (List Float32)

/-- Why scripts cannot be classified: their features cannot be computed, the classifier fails, or it
gives another number of predictions than there are rows. -/
inductive ModelError
  | pipeline (error : PipelineError)
  | prediction (message : String)
  | outputShape (expected actual : Nat)
  deriving DecidableEq, Repr, Inhabited

def ModelError.message : ModelError → String
  | .pipeline e => "feature pipeline: " ++ e.message
  | .prediction message => "prediction failed: " ++ message
  | .outputShape expected actual => s!"expected {expected} predictions, got {actual}"

/-- The features of a table as its bundle's classifier gets them: a column for each key of the
schema. -/
def features (config : PipelineConfig) (bundle : Bundle) (t : FeatureTable) :
    Except PipelineError (List (List Float32)) :=
  (Pipeline.transform config bundle t).map (·.matrix bundle.schema.columns)

/-- One verdict for each row of a table. -/
def classifyTable (config : PipelineConfig) (bundle : Bundle) (classifier : Classifier)
    (t : FeatureTable) : Except ModelError (List Verdict) := do
  let rows ← (features config bundle t).mapError .pipeline
  let predictions ← (classifier rows).mapError .prediction
  if predictions.length ≠ t.size then throw (.outputShape t.size predictions.length)
  return predictions.map .ofPrediction

/-- The verdict on one script. -/
def classify (config : PipelineConfig) (bundle : Bundle) (classifier : Classifier)
    (source : String) : Except ModelError Verdict := do
  match ← classifyTable config bundle classifier (.ofSamples [.ofScript source]) with
  | verdict :: _ => return verdict
  | [] => throw (.outputShape 1 0)

end ScriptFeatures.Model
