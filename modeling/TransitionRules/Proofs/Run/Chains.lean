/-
TransitionRules/Proofs/Run/Chains.lean

Passes over rules whose transforms are chains of actions.  A chain gives an object for every object,
so the turns of such rules are a matter of which rules match and of nothing else
(`turns_eq_chainTurns`), and a pass is the question to the matchers, followed by a reading of the
answers (`loggedPass_of_chains`).

All the chains of a pass, one after the other, are one long chain (`applyChains_eq_applyAll`).  So what
is known of chains is known of passes: done on its own output, the chains of a pass give that output
(`applyChains_again`).
-/
import TransitionRules.Proofs.Rule.Repetition
import TransitionRules.Proofs.Run.Log

namespace TransitionRules.Run

open Reference (Turn turns lastOutput idle)

variable {ι : Type}

/-- The transforms of the rules are these chains of actions. -/
def PerformsChains (rule : ι → Rule) (chain : ι → List Action) : Prop :=
  ∀ place object, (rule place).transform object = pure (Action.applyAll (chain place) object)

/-- A rule with a chain of actions for its transform. -/
def chainRule (name : String) (matcher : Matcher) (chain : List Action) : Rule where
  name := name
  matcher := matcher
  transform object := pure (Action.applyAll chain object)

/-! ### Several chains -/

/-- An object after the chains of some rules, one after the other. -/
def applyChains (chain : ι → List Action) (object : Object) (places : List ι) : Object :=
  places.foldl (fun object place => Action.applyAll (chain place) object) object

theorem applyChains_cons (chain : ι → List Action) (object : Object) (place : ι)
    (rest : List ι) :
    applyChains chain object (place :: rest) =
      applyChains chain (Action.applyAll (chain place) object) rest := rfl

/-- The chains of some rules are one long chain. -/
theorem applyChains_eq_applyAll (chain : ι → List Action) (object : Object) (places : List ι) :
    applyChains chain object places = Action.applyAll (places.flatMap chain) object := by
  induction places generalizing object with
  | nil => rfl
  | cons place rest ih =>
    rw [applyChains_cons, ih, List.flatMap_cons, Action.applyAll, Action.applyAll, Action.applyAll,
      List.foldl_append]

/-- Chains done on their own output give that output. -/
theorem applyChains_again (chain : ι → List Action) (object : Object) (places : List ι) :
    applyChains chain (applyChains chain object places) places = applyChains chain object places := by
  simp only [applyChains_eq_applyAll]
  exact Action.applyAll_again (places.flatMap chain) object

/-! ### The turns of a pass -/

/-- The turns of chains, the first on the given object. -/
def chainTurns (chain : ι → List Action) (input : Object) : List ι → List (Turn ι)
  | [] => []
  | place :: rest =>
    ⟨place, input, Action.applyAll (chain place) input⟩ ::
      chainTurns chain (Action.applyAll (chain place) input) rest

theorem map_rule_chainTurns (chain : ι → List Action) (input : Object) (places : List ι) :
    (chainTurns chain input places).map Turn.rule = places := by
  induction places generalizing input with
  | nil => rfl
  | cons place rest ih => rw [chainTurns, List.map_cons, ih]

theorem lastOutput_chainTurns (chain : ι → List Action) (input : Object) (places : List ι) :
    lastOutput input (chainTurns chain input places) = applyChains chain input places := by
  induction places generalizing input with
  | nil => rfl
  | cons place rest ih => rw [chainTurns, Reference.lastOutput_cons, ih, applyChains_cons]

theorem idle_chainTurns_cons (chain : ι → List Action) (input : Object) (place : ι)
    (rest : List ι) :
    idle (chainTurns chain input (place :: rest)) =
      if (Action.applyAll (chain place) input).sameValue input then
        place :: idle (chainTurns chain (Action.applyAll (chain place) input) rest)
      else idle (chainTurns chain (Action.applyAll (chain place) input) rest) := by
  rw [chainTurns, idle, List.filter_cons, Turn.isIdle]
  split <;> rfl

/-- The rules that retire are among those that had a turn. -/
theorem idle_chainTurns_subset (chain : ι → List Action) (input : Object) (places : List ι) :
    idle (chainTurns chain input places) ⊆ places := by
  have hsub := (Reference.idle_sublist (chainTurns chain input places)).subset
  rwa [map_rule_chainTurns] at hsub

variable {rule : ι → Rule} {chain : ι → List Action}

theorem turns_eq_chainTurns (h : PerformsChains rule chain) (input : Object) (places : List ι) :
    turns rule input places = pure (chainTurns chain input places) := by
  induction places generalizing input with
  | nil => rfl
  | cons place rest ih => rw [turns, h place input, pure_bind, ih, pure_bind, chainTurns]

/-- A pass over rules that perform chains, read off the rules that match. -/
theorem loggedPass_of_chains (h : PerformsChains rule chain) (before candidate : Object)
    (places : List ι) :
    loggedPass rule before candidate places =
      (fun matched => ⟨matched, applyChains chain candidate matched,
        idle (chainTurns chain candidate matched)⟩) <$>
        places.filterM fun place => (rule place).matcher.holds ⟨before, candidate⟩ := by
  rw [loggedPass, ← bind_pure_comp]
  apply congrArg
  funext matched
  rw [turns_eq_chainTurns h, pure_bind, lastOutput_chainTurns]

end TransitionRules.Run
