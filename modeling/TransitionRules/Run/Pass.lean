/-
TransitionRules/Run/Pass.lean

One pass of a run.  First every active rule's matcher looks at the same two states; then the
transforms of the rules that matched are applied one after the other.  A rule that leaves its
object as it is has nothing more to do and is retired.

Within a pass a rule goes by its slot, its place among the active rules.  When rules retire, those
behind them move up, so that a slot means another rule in the next pass.
-/
import TransitionRules.Rule.Basic

namespace TransitionRules.Run

/-- The rules of a list whose matchers hold, with their slots. -/
def select (context : Context) : List (Rule × Nat) → Budgeted (List (Rule × Nat))
  | [] => pure []
  | (rule, slot) :: rest => do
    let holds ← rule.matcher.holds context
    let selected ← select context rest
    return if holds then (rule, slot) :: selected else selected

/-- What the transforms of one pass lead to. -/
structure Effect where
  output : Object
  /-- The rules that changed nothing, with their slots. -/
  retired : List (Rule × Nat)

/-- Applies the transforms of the selected rules one after the other. -/
def perform (input : Object) : List (Rule × Nat) → Budgeted Effect
  | [] => pure ⟨input, []⟩
  | (rule, slot) :: rest => do
    let output ← rule.transform input
    let effect ← perform output rest
    if output.sameValue input then
      return { effect with retired := (rule, slot) :: effect.retired }
    else return effect

/-- The rules that stay active when the ones in the given slots retire. -/
def retain (active : List Rule) (slots : List Nat) : List Rule :=
  (active.zipIdx.filter fun entry => !slots.contains entry.2).map Prod.fst

/-- What one pass leads to. -/
structure Pass where
  /-- The names of the rules that matched. -/
  matched : List String
  output : Object
  /-- The names of the rules that changed nothing. -/
  retired : List String
  /-- The rules that stay active. -/
  active : List Rule

/-- One pass over the active rules. -/
def pass (before candidate : Object) (active : List Rule) : Budgeted Pass := do
  let selected ← select ⟨before, candidate⟩ active.zipIdx
  let effect ← perform candidate selected
  return {
    matched := selected.map (·.1.name)
    output := effect.output
    retired := effect.retired.map (·.1.name)
    active := retain active (effect.retired.map Prod.snd) }

/-- Whether a pass leaves its candidate as it is: no rule matched, or what the rules made of the
candidate has its value. -/
def Pass.isStable (pass : Pass) (candidate : Object) : Bool :=
  pass.matched.isEmpty || pass.output.sameValue candidate

end TransitionRules.Run
