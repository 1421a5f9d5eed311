import TransitionRules.Main
import TransitionRules.Expr.Encoding
import TransitionRules.Expr.Source
import TransitionRules.Run.TraceReader
import TransitionRules.Proofs.Steps
import TransitionRules.Proofs.Budgeted
import TransitionRules.Proofs.Refines
import TransitionRules.Proofs.Agrees
import TransitionRules.Proofs.Run.Passes
import TransitionRules.Proofs.Run.Reference
import TransitionRules.Proofs.Run.Log
import TransitionRules.Proofs.Run.Limit
import TransitionRules.Proofs.Run.Refinement
import TransitionRules.Proofs.Expr.Parts
import TransitionRules.Proofs.Expr.Evaluation
import TransitionRules.Proofs.Expr.Folding
import TransitionRules.Proofs.Expr.Congruence
import TransitionRules.Proofs.Expr.Uncovering
import TransitionRules.Proofs.Expr.Simplification
import TransitionRules.Proofs.Json.Parts
import TransitionRules.Proofs.Json.SameValue
import TransitionRules.Proofs.Run.Inert
import TransitionRules.Proofs.Rule.ActionFields
import TransitionRules.Proofs.Json.FloatFree
import TransitionRules.Proofs.Rule.Repetition
import TransitionRules.Proofs.Run.Chains
import TransitionRules.Proofs.Run.Unconditional
import TransitionRules.Proofs.Run.Removal
import TransitionRules.Proofs.Run.Order
import TransitionRules.Proofs.Run.Settled
import TransitionRules.Proofs.Value.RoundTrip
import TransitionRules.Proofs.Value.Fields
import TransitionRules.Proofs.Value.Integers
import TransitionRules.Proofs.Expr.Edits
import TransitionRules.Proofs.Expr.Equality
import TransitionRules.Proofs.Expr.InlineRules
import TransitionRules.Proofs.Run.Batches
import TransitionRules.Proofs.CommandLine.Records
import TransitionRules.Proofs.Run.Record
import TransitionRules.Proofs.Rule.Compilation
import TransitionRules.Proofs.Value.Canonical
import TransitionRules.Proofs.Expr.CanonicalValues
import TransitionRules.Proofs.Expr.RoundTrip
import TransitionRules.Proofs.Expr.ArrayGrammar
import TransitionRules.Proofs.RuleFile.EnabledEntries
import TransitionRules.Proofs.Expr.Literal
import TransitionRules.Proofs.Expr.NormalForm
import TransitionRules.Proofs.Expr.Overflow
import TransitionRules.Proofs.Expr.Mentions
import TransitionRules.Proofs.Expr.FieldPath
import TransitionRules.Proofs.Run.Frame
import TransitionRules.Proofs.Binary64.Value
import TransitionRules.Proofs.Binary64.Nearest
import TransitionRules.Proofs.Json.NumericValue
