import ScriptFeatures.Main
import ScriptFeatures.Model.Classify
import ScriptFeatures.Decimal.Fixed
import ScriptFeatures.Tree.Outline
import ScriptFeatures.Proofs.Pipeline.BatchIndependence
import ScriptFeatures.Proofs.Pipeline.FitTransform
import ScriptFeatures.Proofs.Syntactic.NestingGuard
import ScriptFeatures.Proofs.Pipeline.RowOrder
import ScriptFeatures.Proofs.Pipeline.ClassifierInput
import ScriptFeatures.Proofs.Outcome
import ScriptFeatures.Proofs.Json.Numeral
import ScriptFeatures.Proofs.Json.Quoted
import ScriptFeatures.Proofs.Json.Write
import ScriptFeatures.Proofs.Calendar.Moment
import ScriptFeatures.Proofs.Json.Reads
import ScriptFeatures.Proofs.Pipeline.BundleFile
import ScriptFeatures.Proofs.Schema.Fingerprint
import ScriptFeatures.Proofs.Binary64.Rounding
import ScriptFeatures.Proofs.Binary64.Arithmetic
import ScriptFeatures.Proofs.Lexical.Weight
import ScriptFeatures.Proofs.Pipeline.SaveLoad
import ScriptFeatures.Proofs.Table.Reached
import ScriptFeatures.Proofs.Syntactic.LimitOrder
import ScriptFeatures.Proofs.Tree.Shape
import ScriptFeatures.Proofs.Script.Shape
import ScriptFeatures.Proofs.Syntactic.TreeShape
import ScriptFeatures.Proofs.Nesting.Balance
import ScriptFeatures.Proofs.Nesting.Machine
import ScriptFeatures.Proofs.Nesting.Safety
import ScriptFeatures.Proofs.Tree.Walk
import ScriptFeatures.Proofs.Text.Lines
import ScriptFeatures.Proofs.Json.OneLine
import ScriptFeatures.Proofs.Table.SampleFile
import ScriptFeatures.Proofs.Nesting.Sequence
import ScriptFeatures.Proofs.Nesting.Heads
import ScriptFeatures.Proofs.Nesting.Gap
import ScriptFeatures.Proofs.Syntactic.LengthBound
import ScriptFeatures.Proofs.Nesting.Bound
import ScriptFeatures.Proofs.Nesting.Interchange
import ScriptFeatures.Proofs.Nesting.StringLiteral
import ScriptFeatures.Proofs.Nesting.Flat
import ScriptFeatures.Proofs.Nesting.BracketDepth
import ScriptFeatures.Proofs.Script.Sequence
import ScriptFeatures.Proofs.Script.Skeleton
import ScriptFeatures.Proofs.Syntactic.Extraction
import ScriptFeatures.Proofs.Table.Appending
import ScriptFeatures.Proofs.Schema.Alignment
import ScriptFeatures.Proofs.Json.Keeps
import ScriptFeatures.Proofs.Lexical.Vocabulary
import ScriptFeatures.Proofs.Lexical.Lookup
import ScriptFeatures.Proofs.Lexical.Rows
import ScriptFeatures.Proofs.Text.Pattern
import ScriptFeatures.Proofs.Statistical.Counters
import ScriptFeatures.Proofs.Table.Row
import ScriptFeatures.Proofs.Run.Rows
import ScriptFeatures.Proofs.Tree.Depth
import ScriptFeatures.Proofs.Table.LineNumbers
import ScriptFeatures.Proofs.Table.Label
import ScriptFeatures.Proofs.Config.Completion
