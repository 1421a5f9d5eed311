/-
TransitionRules/Run/TraceReader.lean

Reading the record of a run from data.  Each record is an object of its fields, among which others
do not count, or a list of their values in order.
-/
import TransitionRules.Run.Trace

namespace TransitionRules.Trace

/-- A count. -/
def count? : Json → Option Nat
  | .number (.int n _ _) => if 0 ≤ n then some n.toNat else none
  | _ => none

/-- A list of values of one kind. -/
def list? {α : Type} (read : Json → Option α) : Json → Option (List α)
  | .array items => items.mapM read
  | _ => none

/-- A pass. -/
def pass? : Json → Option PassTrace
  | .object fields => do
    return ⟨← (fields.get? "iteration").bind count?,
      ← (fields.get? "matched").bind (list? Json.string?)⟩
  | .array [pass, matched] => do return ⟨← count? pass, ← list? Json.string? matched⟩
  | _ => none

/-- A retired rule. -/
def retired? : Json → Option RetiredRule
  | .object fields => do
    return ⟨← (fields.get? "rule").bind Json.string?, ← (fields.get? "iteration").bind count?⟩
  | .array [rule, pass] => do return ⟨← rule.string?, ← count? pass⟩
  | _ => none

/-- Retired rules, which may be left out. -/
def retiredRules? : Option Json → Option (List RetiredRule)
  | none => some []
  | some data => list? retired? data

/-- The record of data. -/
def ofJson? : Json → Option Trace
  | .object fields => do
    return ⟨← (fields.get? "iterations").bind count?,
      ← (fields.get? "passes").bind (list? pass?), ← retiredRules? (fields.get? "retired")⟩
  | .array [iterations, passes] => do return ⟨← count? iterations, ← list? pass? passes, []⟩
  | .array [iterations, passes, retired] => do
    return ⟨← count? iterations, ← list? pass? passes, ← retiredRules? (some retired)⟩
  | _ => none

end TransitionRules.Trace
