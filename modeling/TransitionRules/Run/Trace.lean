/-
TransitionRules/Run/Trace.lean

The record of a run: which rules matched in which pass, and which rules were retired because they
had nothing to change.
-/
import TransitionRules.Json.Ordered

namespace TransitionRules

/-- The rules that matched in one pass. -/
structure PassTrace where
  /-- The number of the pass; the first pass is number one. -/
  pass : Nat
  matched : List String
  deriving DecidableEq, Repr

/-- A rule that was retired. -/
structure RetiredRule where
  rule : String
  /-- The pass that retired it. -/
  pass : Nat
  deriving DecidableEq, Repr

/-- The record of one run. -/
structure Trace where
  /-- The number of passes, the last one that changed nothing included. -/
  iterations : Nat := 0
  passes : List PassTrace := []
  retired : List RetiredRule := []
  deriving DecidableEq, Repr

namespace Trace

/-- Whether a rule of this name was retired. -/
def wasRetired (trace : Trace) (rule : String) : Bool :=
  trace.retired.any fun retired => retired.rule = rule

/-- Adds the names that are not in a list yet, in their order. -/
def addNew (known : List String) : List String → List String
  | [] => known
  | name :: rest => addNew (if known.contains name then known else known ++ [name]) rest

/-- The names of the rules that matched in some pass, in the order of their first match. -/
def matchedRules (trace : Trace) : List String :=
  addNew [] (trace.passes.flatMap PassTrace.matched)

/-- The record with one more pass. -/
def record (trace : Trace) (pass : Nat) (matched retired : List String) : Trace where
  iterations := pass
  passes := trace.passes ++ [⟨pass, matched⟩]
  retired := trace.retired ++ retired.map fun rule => ⟨rule, pass⟩

/-! ### As a document -/

/-- A pass as a document. -/
def passDocument (trace : PassTrace) : OrderedJson :=
  .record [("iteration", .natural trace.pass), ("matched", .strings trace.matched)]

/-- A retired rule as a document. -/
def retiredDocument (retired : RetiredRule) : OrderedJson :=
  .record [("rule", .string retired.rule), ("iteration", .natural retired.pass)]

/-- The record as a document; retired rules are left out if there are none. -/
def document (trace : Trace) : OrderedJson :=
  .record ([("iterations", .natural trace.iterations),
    ("passes", .array (trace.passes.map passDocument))] ++
    if trace.retired.isEmpty then []
    else [("retired", .array (trace.retired.map retiredDocument))])

end Trace

end TransitionRules
