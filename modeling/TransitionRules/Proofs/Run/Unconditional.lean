/-
TransitionRules/Proofs/Run/Unconditional.lean

Rules that match always or never and whose transforms are chains of actions.  Where no document has a
double in it, such rules settle at once: the first pass does all that will ever be done.

In the second pass the rules that changed nothing are gone, and the others do their chains again.
They may well undo each other's work on the way, so a pass is taken as a whole.  The rules that are
left make of the first candidate what all the rules made of it (`applyChains_dropIdle`), and chains
that are done on their own output give that output (`applyChains_again`).

Doubles would spoil this.  A rule that turns `1` into `1.0` retires, and a pass that does no more than
that is given up for its candidate.

Main result: `stabilize_unconditional`.
-/
import TransitionRules.Proofs.Json.FloatFree
import TransitionRules.Proofs.Run.Chains

namespace TransitionRules

namespace Action

/-! ### Actions without doubles -/

/-- No value that the action sets or merges has a double in it. -/
inductive FloatFree : Action → Prop
  | remove (field : String) : FloatFree (.remove field)
  | set (field : String) {value : Json} (h : value.FloatFree) : FloatFree (.set field value)
  | patch {changes : Object} (h : changes.FloatFree) : FloatFree (.patch changes)

variable {action : Action} {actions : List Action} {object : Object}

theorem FloatFree.applyAt (h : action.FloatFree) {key : String} {content : Option Json}
    (hcontent : ∀ value, content = some value → value.FloatFree) {result : Json}
    (hresult : action.applyAt key content = some result) : result.FloatFree := by
  cases h with
  | remove field =>
    rw [Action.applyAt] at hresult
    split at hresult
    · cases hresult
    · exact hcontent result hresult
  | set field h =>
    rw [Action.applyAt] at hresult
    split at hresult
    · cases hresult
      exact h
    · exact hcontent result hresult
  | patch h =>
    refine Json.floatFree_patchAt (fun value hvalue target htarget => ?_) hcontent hresult
    exact Json.floatFree_mergePatch (h key value hvalue) htarget

theorem floatFree_apply (h : action.FloatFree) (hobject : object.FloatFree) :
    Object.FloatFree (action.apply object) := by
  intro name value hvalue
  rw [get?_apply] at hvalue
  exact h.applyAt (hobject name) hvalue

/-- A chain without doubles brings none into an object. -/
theorem floatFree_applyAll (h : ∀ action ∈ actions, action.FloatFree) (hobject : object.FloatFree) :
    Object.FloatFree (applyAll actions object) := by
  induction actions generalizing object with
  | nil => exact hobject
  | cons action rest ih =>
    rw [List.forall_mem_cons] at h
    exact ih h.2 (floatFree_apply h.1 hobject)

end Action

namespace Run

open Reference (idle)

variable {ι : Type} {rule : ι → Rule} {fires : ι → Bool} {chain : ι → List Action}

/-- Rules that match always or never and perform chains of actions. -/
structure Unconditional (rule : ι → Rule) (fires : ι → Bool) (chain : ι → List Action) : Prop where
  matchers : ∀ place, (rule place).matcher = .constant (fires place)
  transforms : PerformsChains rule chain

/-! ### One pass -/

/-- What a pass over rules that match always or never comes to. -/
def chainPass (fires : ι → Bool) (chain : ι → List Action) (candidate : Object)
    (places : List ι) : PassLog ι where
  matched := places.filter fires
  output := applyChains chain candidate (places.filter fires)
  retired := idle (chainTurns chain candidate (places.filter fires))

/-- The matchers of a pass are asked without any effect. -/
theorem loggedPass_ends (h : Unconditional rule fires chain) (before candidate : Object)
    (places : List ι) :
    (loggedPass rule before candidate places).Ends
      (.ok (chainPass fires chain candidate places)) := by
  have hmatched : places.filterM (fun place => (rule place).matcher.holds ⟨before, candidate⟩) =
      (pure (places.filter fires) : Budgeted (List ι)) := by
    induction places with
    | nil => rfl
    | cons place rest ih =>
      rw [Budgeted.filterM_cons, ih, h.matchers place, Matcher.holds, pure_bind, pure_bind,
        List.filter_cons]
  rw [loggedPass_of_chains h.transforms, hmatched, map_pure]
  exact Budgeted.ends_pure_iff.mpr rfl

theorem floatFree_applyChains (hchains : ∀ place, ∀ action ∈ chain place, action.FloatFree)
    {object : Object} (hobject : object.FloatFree) (places : List ι) :
    Object.FloatFree (applyChains chain object places) := by
  rw [applyChains_eq_applyAll]
  refine Action.floatFree_applyAll (fun action haction => ?_) hobject
  obtain ⟨place, -, haction⟩ := List.mem_flatMap.mp haction
  exact hchains place action haction

/-- Without doubles, a pass is stable only if its chains give back its candidate. -/
theorem isStable_chainPass_iff (hchains : ∀ place, ∀ action ∈ chain place, action.FloatFree)
    {candidate : Object} (hcandidate : candidate.FloatFree) (places : List ι) :
    (chainPass fires chain candidate places).isStable candidate = true ↔
      applyChains chain candidate (places.filter fires) = candidate := by
  refine ⟨fun hstable => ?_, fun hsettled => PassLog.isStable_of_output_eq hsettled⟩
  rw [PassLog.isStable, Bool.or_eq_true] at hstable
  obtain hnone | hsame := hstable
  · have hmatched : places.filter fires = [] := List.isEmpty_iff.mp hnone
    rw [hmatched]
    rfl
  · have houtput := floatFree_applyChains hchains hcandidate (places.filter fires)
    exact (Object.sameValue_iff_eq houtput hcandidate).mp hsame

variable [DecidableEq ι]

/-! ### The pass after it -/

/-- Without the rules that change nothing, the chains of a pass come to the same. -/
theorem applyChains_dropIdle (hchains : ∀ place, ∀ action ∈ chain place, action.FloatFree)
    {input : Object} (hinput : input.FloatFree) {places : List ι} (hnodup : places.Nodup) :
    applyChains chain input
        (places.filter fun place => place ∉ idle (chainTurns chain input places)) =
      applyChains chain input places := by
  induction places generalizing input with
  | nil => rfl
  | cons place rest ih =>
    obtain ⟨hplace, hrest⟩ := List.nodup_cons.mp hnodup
    have houtput := Action.floatFree_applyAll (hchains place) hinput
    have hlater := ih houtput hrest
    -- the rule has no second turn, so it is not among the idle ones of the later turns
    have hnot : place ∉ idle (chainTurns chain (Action.applyAll (chain place) input) rest) :=
      fun hmem => hplace (idle_chainTurns_subset chain _ rest hmem)
    rw [idle_chainTurns_cons, applyChains_cons]
    by_cases hidle : (Action.applyAll (chain place) input).sameValue input = true
    · -- a rule that retires has given back the very object it got
      have hsame := (Object.sameValue_iff_eq houtput hinput).mp hidle
      have hothers : rest.filter (fun other =>
          other ∉ place :: idle (chainTurns chain (Action.applyAll (chain place) input) rest)) =
          rest.filter fun other =>
            other ∉ idle (chainTurns chain (Action.applyAll (chain place) input) rest) := by
        apply List.filter_congr
        intro other hother
        have hne : other ≠ place := by
          rintro rfl
          exact hplace hother
        simp [hne]
      rw [if_pos hidle, List.filter_cons_of_neg (by simp), hothers, ← hlater, hsame]
    · rw [if_neg hidle, List.filter_cons_of_pos (by simpa using hnot), applyChains_cons, hlater]

/-- What a pass has made of an object, the rules that it leaves do not change. -/
theorem applyChains_again_dropIdle (hchains : ∀ place, ∀ action ∈ chain place, action.FloatFree)
    {input : Object} (hinput : input.FloatFree) {places : List ι} (hnodup : places.Nodup) :
    applyChains chain (applyChains chain input places)
        (places.filter fun place => place ∉ idle (chainTurns chain input places)) =
      applyChains chain input places := by
  have hdrop := applyChains_dropIdle hchains hinput hnodup
  have hagain := applyChains_again chain input
    (places.filter fun place => place ∉ idle (chainTurns chain input places))
  rwa [hdrop] at hagain

/-- After a pass, the chains of the rules leave the candidate as it is. -/
theorem applyChains_active_after (fires : ι → Bool)
    (hchains : ∀ place, ∀ action ∈ chain place, action.FloatFree) {state : LogState ι}
    (hcandidate : state.candidate.FloatFree) :
    let later := state.after (chainPass fires chain state.candidate state.active)
    applyChains chain later.candidate (later.active.filter fires) = later.candidate := by
  intro later
  -- of the rules that match, those that have not retired still do
  have hactive : later.active.filter fires = (state.active.filter fires).filter fun place =>
      place ∉ (chainPass fires chain state.candidate state.active).retired :=
    List.filter_comm ..
  rw [hactive]
  exact applyChains_again_dropIdle hchains hcandidate (state.nodup.filter _)

/-- A round in which the chains leave the candidate as it is ends the run. -/
theorem loggedRound_of_settled (h : Unconditional rule fires chain) (before : Object)
    (limit : Option Nat) (state : LogState ι)
    (hsettled : applyChains chain state.candidate (state.active.filter fires) = state.candidate) :
    (loggedRound rule before limit state).Ends
      (.ok (.inr (state.candidate,
        state.log ++ [chainPass fires chain state.candidate state.active]))) := by
  have hstable : (chainPass fires chain state.candidate state.active).isStable state.candidate =
      true := PassLog.isStable_of_output_eq hsettled
  have hround := loggedRound_of_pass limit (loggedPass_ends h before _ state.active)
  rwa [if_pos hstable] at hround

/-- Any other round is followed by another, if the limit allows it. -/
theorem loggedRound_of_unsettled (h : Unconditional rule fires chain) (before : Object)
    (limit : Option Nat) (hchains : ∀ place, ∀ action ∈ chain place, action.FloatFree)
    {state : LogState ι} (hcandidate : state.candidate.FloatFree)
    (hchange : applyChains chain state.candidate (state.active.filter fires) ≠ state.candidate) :
    (loggedRound rule before limit state).Ends
      (if limitReached limit (state.log.length + 1) then
        .error (.nonConvergence (state.log.length + 1))
      else .ok (.inl (state.after (chainPass fires chain state.candidate state.active)))) := by
  have hstable := (isStable_chainPass_iff hchains hcandidate state.active).not.mpr hchange
  have hround := loggedRound_of_pass limit (loggedPass_ends h before _ state.active)
  rwa [if_neg hstable] at hround

/-- One pass is too many only where one pass is the limit. -/
theorem limitReached_one_iff {limit : Option Nat} : limitReached limit 1 = true ↔ limit = some 1 := by
  cases limit with
  | none => simp [limitReached]
  | some bound =>
    rw [limitReached, Bool.and_eq_true, decide_eq_true_iff, decide_eq_true_iff, Option.some.injEq]
    omega

/-! ### The run -/

/-- **Unconditional rules settle at once.**  Let rules match always or never and perform chains of
actions, and let there be no double in the objects or in the actions.  Then a run ends with what the
chains of the rules that match make of its first candidate, each of them done once, in order.  It ends
in the first pass if this is the first candidate itself, and in the second if not; a limit matters
only if it is one pass and two are needed. -/
theorem stabilize_unconditional (rules : List Rule) (fires : Fin rules.length → Bool)
    (chain : Fin rules.length → List Action) (hrules : Unconditional rules.get fires chain)
    (hchains : ∀ place, ∀ action ∈ chain place, action.FloatFree) {before patch : Object}
    (hbefore : before.FloatFree) (hpatch : patch.FloatFree) :
    let merged := before.overlay patch
    let settled := applyChains chain merged ((List.finRange rules.length).filter fires)
    (settled = merged ∧ ∀ limit, PlainEndsInPass rules limit before patch 1 (.ok settled)) ∨
      (settled ≠ merged ∧
        (∀ limit, limit ≠ some 1 → PlainEndsInPass rules limit before patch 2 (.ok settled)) ∧
        PlainEndsInPass rules (some 1) before patch 1 (.error (.nonConvergence 1))) := by
  intro merged settled
  simp only [plainEndsInPass_iff_logged_get]
  -- the run told by places, before its first pass
  let start : LogState (Fin rules.length) := .start before patch (List.nodup_finRange rules.length)
  have hmerged : start.candidate.FloatFree := hbefore.overlay hpatch
  by_cases hsettled : settled = merged
  · left
    refine ⟨hsettled, fun limit => ?_⟩
    have hround := loggedRound_of_settled hrules before limit start hsettled
    exact ⟨_, .answer hround, congrArg Except.ok hsettled⟩
  · right
    have hfirst := fun limit =>
      loggedRound_of_unsettled hrules before limit hchains hmerged hsettled
    refine ⟨hsettled, fun limit hlimit => ?_, ?_⟩
    · have hreached : ¬ limitReached limit (start.log.length + 1) = true :=
        limitReached_one_iff.not.mpr hlimit
      have hnext := hfirst limit
      rw [if_neg hreached] at hnext
      have hlast := loggedRound_of_settled hrules before limit (start.after _)
        (applyChains_active_after fires hchains hmerged)
      exact ⟨_, .next hnext (.answer hlast), rfl⟩
    · exact ⟨_, .failure (hfirst (some 1)), rfl⟩

/-- Chains of which two undo each other's work, one has nothing to do, and one is never done. -/
abbrev doorChains : List (List Action) :=
  [[.set "door" (.string "open")], [.set "door" (.string "closed")], [.remove "draft"],
    [.remove "door"]]

/-- Rules that do the first three of them. -/
abbrev doorRules : List Rule :=
  [chainRule "open" (.constant true) [.set "door" (.string "open")],
    chainRule "close" (.constant true) [.set "door" (.string "closed")],
    chainRule "tidy" (.constant true) [.remove "draft"],
    chainRule "demolish" (.constant false) [.remove "door"]]

theorem unconditional_door :
    Unconditional doorRules.get [true, true, true, false].get doorChains.get where
  matchers place := by
    match place with
    | 0 | 1 | 2 | 3 => rfl
  transforms place object := by
    match place with
    | 0 | 1 | 2 | 3 => rfl

theorem floatFree_doorChains (place : Fin doorChains.length) :
    ∀ action ∈ doorChains.get place, action.FloatFree := by
  match place with
  | 0 | 1 => exact List.forall_mem_singleton.mpr (.set _ (.string _))
  | 2 | 3 => exact List.forall_mem_singleton.mpr (.remove _)

/-- The door is opened and closed in both passes, and a limit of two passes is enough. -/
theorem stabilize_unconditional_door :
    Unconditional doorRules.get [true, true, true, false].get doorChains.get ∧
      (∀ place, ∀ action ∈ doorChains.get place, action.FloatFree) ∧
      Object.FloatFree .nil ∧
      PlainEndsInPass doorRules (some 2) .nil .nil 2
        (.ok (FieldsAfter.nil.insert "door" (.string "closed"))) := by
  refine ⟨unconditional_door, floatFree_doorChains, Object.floatFree_nil, ?_⟩
  obtain ⟨hsame, -⟩ | ⟨-, hend, -⟩ := stabilize_unconditional doorRules
    [true, true, true, false].get doorChains.get unconditional_door floatFree_doorChains
    Object.floatFree_nil Object.floatFree_nil
  · cases hsame
  · exact hend (some 2) (by decide)

end Run

end TransitionRules
