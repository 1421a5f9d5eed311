/-
TransitionRules/Run/Stabilize.lean

Running rules until they have nothing more to change.  A run starts from an object with a patch
laid over it and makes pass after pass; it ends with the candidate that a pass left as it was.  A
limit bounds the number of passes that may change the candidate; no limit and the limit zero are
the same.

`stabilize` gives the object alone, `stabilizeTraced` also the record of the run.
-/
import TransitionRules.Run.Pass
import TransitionRules.Run.Trace

namespace TransitionRules.Run

/-- Whether a limit is reached after so many passes. -/
def limitReached (limit : Option Nat) (passes : Nat) : Bool :=
  match limit with
  | none => false
  | some limit => 0 < limit && limit ≤ passes

/-- Where a run stands between two passes. -/
structure State where
  /-- The number of passes made. -/
  passes : Nat
  candidate : Object
  active : List Rule

/-- One pass of a run. -/
def round (before : Object) (limit : Option Nat) (state : State) :
    Budgeted (State ⊕ Object) := do
  let pass ← Run.pass before state.candidate state.active
  if pass.isStable state.candidate then return .inr state.candidate
  else if limitReached limit (state.passes + 1) then
    Budgeted.fail (.nonConvergence (state.passes + 1))
  else return .inl ⟨state.passes + 1, pass.output, pass.active⟩

/-- Lays a patch over an object and runs the rules until they have nothing more to change. -/
def stabilize (rules : List Rule) (limit : Option Nat) (before patch : Object) :
    Budgeted Object :=
  Budgeted.loop (round before limit) ⟨0, before.overlay patch, rules⟩

/-- Where a recorded run stands between two passes. -/
structure TracedState where
  candidate : Object
  active : List Rule
  trace : Trace

/-- One pass of a recorded run. -/
def tracedRound (before : Object) (limit : Option Nat) (state : TracedState) :
    Budgeted (TracedState ⊕ (Object × Trace)) := do
  let pass ← Run.pass before state.candidate state.active
  let number := state.trace.iterations + 1
  let trace := state.trace.record number pass.matched pass.retired
  if pass.isStable state.candidate then return .inr (state.candidate, trace)
  else if limitReached limit number then Budgeted.fail (.nonConvergence number)
  else return .inl ⟨pass.output, pass.active, trace⟩

/-- Like `stabilize`, with the record of the run. -/
def stabilizeTraced (rules : List Rule) (limit : Option Nat) (before patch : Object) :
    Budgeted (Object × Trace) :=
  Budgeted.loop (tracedRound before limit) ⟨before.overlay patch, rules, {}⟩

end TransitionRules.Run
