/-
TransitionRules/Run/Reducer.lean

Folding patches into an object.  After each patch the rules run until they have nothing more to
change; without patches they run once on the object as it is.  Every run starts with all the
rules, whatever was retired in the run before.
-/
import TransitionRules.Run.Stabilize

namespace TransitionRules

/-- A set of rules with a limit on the passes of each run. -/
structure Reducer where
  rules : List Rule
  limit : Option Nat := none

namespace Reducer

/-- One run with one patch. -/
def apply (reducer : Reducer) (base patch : Object) : Budgeted Object :=
  Run.stabilize reducer.rules reducer.limit base patch

/-- One run without any patch. -/
def stabilize (reducer : Reducer) (base : Object) : Budgeted Object :=
  reducer.apply base .nil

/-- One run after each patch of a list. -/
def applyAll (reducer : Reducer) (base : Object) : List Object → Budgeted Object
  | [] => pure base
  | patch :: rest => do
    let next ← reducer.apply base patch
    reducer.applyAll next rest

/-- Folds patches into an object. -/
def reduce (reducer : Reducer) (base : Object) (patches : List Object) : Budgeted Object :=
  if patches.isEmpty then reducer.stabilize base else reducer.applyAll base patches

/-- One recorded run after each patch of a list. -/
def applyAllTraced (reducer : Reducer) (base : Object) :
    List Object → Budgeted (Object × List Trace)
  | [] => pure (base, [])
  | patch :: rest => do
    let (next, trace) ← Run.stabilizeTraced reducer.rules reducer.limit base patch
    let (final, traces) ← reducer.applyAllTraced next rest
    return (final, trace :: traces)

/-- Folds patches into an object, with the record of every run. -/
def reduceTraced (reducer : Reducer) (base : Object) (patches : List Object) :
    Budgeted (Object × List Trace) :=
  reducer.applyAllTraced base (if patches.isEmpty then [.nil] else patches)

end Reducer

end TransitionRules
