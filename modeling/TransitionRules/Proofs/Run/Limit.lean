/-
TransitionRules/Proofs/Run/Limit.lean

What a limit on the passes changes about a run.  A limited pass is the unlimited one followed by a
look at the limit (`tracedRound_eq_bind_stop`), so a limited run goes through the passes of the
unlimited one until the limit is reached.

Main result: a run that ends in a pass within the limit ends the same with the limit; any other run
fails with the limit, in the pass that reaches it (`stabilize_limit`).
-/
import TransitionRules.Proofs.Run.Passes

namespace TransitionRules.Run

open Budgeted (Reaches EndsIn)

variable {before : Object} {limit : Option Nat} {state later : TracedState} {number count : Nat}
variable {outcome : Outcome (Object × Trace)}

/-! ### One limited pass -/

/-- Stops a run that would go on although its limit is reached. -/
def stop (limit : Option Nat) :
    TracedState ⊕ (Object × Trace) → Budgeted (TracedState ⊕ (Object × Trace))
  | .inl state =>
    if limitReached limit state.trace.iterations then
      Budgeted.fail (.nonConvergence state.trace.iterations)
    else pure (.inl state)
  | .inr result => pure (.inr result)

/-- The limit counts after a pass has been found not to be stable. -/
theorem tracedRound_eq_bind_stop (before : Object) (limit : Option Nat) (state : TracedState) :
    tracedRound before limit state = tracedRound before none state >>= stop limit := by
  simp only [tracedRound, bind_assoc]
  refine congrArg _ (funext fun result => ?_)
  by_cases hstable : result.isStable state.candidate
  · simp [hstable, stop]
  · simp [hstable, stop, limitReached, Trace.record]

/-- The limit zero is no limit. -/
theorem tracedRound_zero (before : Object) (state : TracedState) :
    tracedRound before (some 0) state = tracedRound before none state := by
  simp [tracedRound, limitReached]

theorem endsIn_pos (h : EndsIn (tracedRound before limit) state number outcome) : 0 < number := by
  cases h <;> omega

/-- A pass that ends a run ends the limited run. -/
theorem tracedRound_ends_of_none {result : Outcome (TracedState ⊕ (Object × Trace))}
    (h : (tracedRound before none state).Ends result) (hnext : ∀ later, result ≠ .ok (.inl later)) :
    (tracedRound before limit state).Ends result := by
  rw [tracedRound_eq_bind_stop, Budgeted.ends_bind_iff]
  rcases result with e | (later | final)
  · exact .inl ⟨e, h, rfl⟩
  · exact absurd rfl (hnext later)
  · exact .inr ⟨.inr final, h, Budgeted.ends_pure_iff.mpr rfl⟩

/-- A pass that does not reach the limit leads to the same state with the limit. -/
theorem tracedRound_inl_of_none (h : (tracedRound before none state).Ends (.ok (.inl later)))
    (hlimit : limitReached limit later.trace.iterations = false) :
    (tracedRound before limit state).Ends (.ok (.inl later)) := by
  rw [tracedRound_eq_bind_stop, Budgeted.ends_bind_ok_iff]
  exact ⟨.inl later, h, by simp [stop, hlimit, Budgeted.ends_pure_iff]⟩

/-- A pass that reaches the limit without ending the run fails. -/
theorem tracedRound_fails_of_none (h : (tracedRound before none state).Ends (.ok (.inl later)))
    (hlimit : limitReached limit later.trace.iterations = true) :
    (tracedRound before limit state).Ends (.error (.nonConvergence later.trace.iterations)) := by
  rw [tracedRound_eq_bind_stop, Budgeted.ends_bind_iff]
  exact .inr ⟨.inl later, h, by simp [stop, hlimit, Budgeted.ends_fail_iff]⟩

theorem limitReached_of_le {bound passes : Nat} (hpos : 0 < bound) (h : bound ≤ passes) :
    limitReached (some bound) passes = true := by
  simp [limitReached, hpos, h]

theorem limitReached_of_lt {bound passes : Nat} (h : passes < bound) :
    limitReached (some bound) passes = false := by
  have hnot : ¬ bound ≤ passes := by omega
  simp [limitReached, hnot]

/-! ### Runs with a limit -/

/-- Before the limit is reached, the limited run goes through the states of the unlimited one. -/
theorem reaches_limit {bound : Nat} (h : Reaches (tracedRound before none) state number later)
    (hbound : state.trace.iterations + number < bound) :
    Reaches (tracedRound before (some bound)) state number later := by
  induction h with
  | start => exact .start
  | next hround hrest ih =>
    have hcount := iterations_of_reaches (.next hround .start)
    exact .next (tracedRound_inl_of_none hround (limitReached_of_lt (by omega))) (ih (by omega))

/-- A run that ends within the limit ends the same with the limit. -/
theorem endsIn_limit {bound : Nat} (h : EndsIn (tracedRound before none) state number outcome)
    (hbound : state.trace.iterations + number ≤ bound) :
    EndsIn (tracedRound before (some bound)) state number outcome := by
  induction h with
  | answer hround => exact .answer (tracedRound_ends_of_none hround (by simp))
  | failure hround => exact .failure (tracedRound_ends_of_none hround (by simp))
  | next hround hrest ih =>
    have hcount := iterations_of_reaches (.next hround .start)
    have hpos := endsIn_pos hrest
    exact .next (tracedRound_inl_of_none hround (limitReached_of_lt (by omega))) (ih (by omega))

/-- A run that outlasts the limit fails in the pass that reaches it. -/
theorem endsIn_nonConvergence {bound : Nat} (hpos : state.trace.iterations < bound)
    (h : Reaches (tracedRound before none) state number later)
    (hbound : state.trace.iterations + number = bound) :
    EndsIn (tracedRound before (some bound)) state number (.error (.nonConvergence bound)) := by
  induction h with
  | start => omega
  | @next state middle later number hround hrest ih =>
    have hcount := iterations_of_reaches (.next hround .start)
    by_cases hlast : number = 0
    · -- the last of the passes reaches the limit
      subst hlast
      have hreached : limitReached (some bound) middle.trace.iterations = true :=
        limitReached_of_le (by omega) (by omega)
      have hfails := tracedRound_fails_of_none hround hreached
      rw [show middle.trace.iterations = bound by omega] at hfails
      exact .failure hfails
    · exact .next (tracedRound_inl_of_none hround (limitReached_of_lt (by omega)))
        (ih (by omega) (by omega))

variable {rules : List Rule} {patch : Object} {bound : Nat}

theorem stabilizeTraced_zero (rules : List Rule) (before patch : Object) :
    stabilizeTraced rules (some 0) before patch = stabilizeTraced rules none before patch := by
  have hround : tracedRound before (some 0) = tracedRound before none :=
    funext (tracedRound_zero before)
  rw [stabilizeTraced, stabilizeTraced, hround]

theorem endsInPass_limit (h : EndsInPass rules none before patch number outcome)
    (hbound : number ≤ bound) : EndsInPass rules (some bound) before patch number outcome :=
  endsIn_limit h (by simpa using hbound)

/-- Either the unlimited run ends in a pass within the limit, or it ends later, if at all. -/
theorem within_or_late (rules : List Rule) (before patch : Object) (bound : Nat) :
    (∃ number outcome, number ≤ bound ∧ EndsInPass rules none before patch number outcome) ∨
      ∀ number outcome, EndsInPass rules none before patch number outcome → bound < number := by
  by_cases h : ∃ number outcome, number ≤ bound ∧
      EndsInPass rules none before patch number outcome
  · exact .inl h
  · exact .inr fun number outcome hend =>
      Nat.lt_of_not_le fun hle => h ⟨number, outcome, hle, hend⟩

/-- A run none of whose first passes ends it fails with the limit. -/
theorem endsInPass_nonConvergence (hpos : 0 < bound)
    (hlate : ∀ number outcome, EndsInPass rules none before patch number outcome → bound < number)
    (hends : PassesEnd rules before patch bound) :
    EndsInPass rules (some bound) before patch bound (.error (.nonConvergence bound)) := by
  obtain ⟨number, hle, outcome, hend⟩ | ⟨final, hreach⟩ | ⟨number, hlt, held, hreach, hdiverges⟩ :=
    Budgeted.endsIn_or_reaches_or_held_up (tracedRound before none) bound
      ⟨before.overlay patch, rules, {}⟩
  · have := hlate number outcome hend
    omega
  · exact endsIn_nonConvergence hpos hreach (by simp)
  · rw [Budgeted.diverges_iff_not_halts, tracedRound_halts_iff] at hdiverges
    exact absurd (hends number held hlt hreach) hdiverges

/-- A run that is held up by one of its first passes is held up with the limit too. -/
theorem stabilizeTraced_diverges_limit (h : ¬ PassesEnd rules before patch bound) :
    (stabilizeTraced rules (some bound) before patch).Diverges := by
  simp only [PassesEnd, Classical.not_forall] at h
  obtain ⟨number, held, hlt, hreach, hpass⟩ := h
  refine (reaches_limit hreach (by simpa using hlt)).diverges_loop ?_
  rw [Budgeted.diverges_iff_not_halts, tracedRound_halts_iff]
  exact hpass

/-- A result within a limit is the result of a pass of the unlimited run. -/
theorem endsInPass_of_limit {result : Object × Trace} (hpos : 0 < bound)
    (h : (stabilizeTraced rules (some bound) before patch).Ends (.ok result)) :
    ∃ number, number ≤ bound ∧ EndsInPass rules none before patch number (.ok result) := by
  obtain ⟨number, outcome, hle, hend⟩ | hlate := within_or_late rules before patch bound
  · cases h.unique (endsInPass_limit hend hle).ends_loop
    exact ⟨number, hle, hend⟩
  · by_cases hends : PassesEnd rules before patch bound
    · cases h.unique (endsInPass_nonConvergence hpos hlate hends).ends_loop
    · have hdiverges := stabilizeTraced_diverges_limit hends
      rw [Budgeted.diverges_iff_not_halts] at hdiverges
      exact absurd ⟨_, h⟩ hdiverges

/-- Raising a limit, or lifting it, keeps a result. -/
theorem stabilizeTraced_raise {result : Object × Trace} {more : Nat} (hpos : 0 < bound)
    (hmore : more = 0 ∨ bound ≤ more)
    (h : (stabilizeTraced rules (some bound) before patch).Ends (.ok result)) :
    (stabilizeTraced rules (some more) before patch).Ends (.ok result) := by
  obtain ⟨number, hle, hend⟩ := endsInPass_of_limit hpos h
  rcases hmore with rfl | hmore
  · rw [stabilizeTraced_zero]
    exact hend.ends_loop
  · exact (endsInPass_limit hend (by omega)).ends_loop

/-- **The limit.**  With a limit a run has the outcome of the unlimited run if that ends in a pass
within the limit, and fails otherwise in the pass that reaches the limit. -/
theorem stabilize_limit (rules : List Rule) (before patch : Object) (bound : Nat)
    (hpos : 0 < bound) :
    -- no limit and the limit zero are the same
    (stabilizeTraced rules (some 0) before patch = stabilizeTraced rules none before patch ∧
      stabilize rules (some 0) before patch = stabilize rules none before patch) ∧
    -- what ends in a pass within the limit ends there with the limit
    (∀ number outcome, number ≤ bound → EndsInPass rules none before patch number outcome →
      EndsInPass rules (some bound) before patch number outcome ∧
        (stabilize rules (some bound) before patch).Ends (outcome.map Prod.fst)) ∧
    -- everything else fails with the limit, or does not end where a pass does not
    ((∀ number outcome, EndsInPass rules none before patch number outcome → bound < number) →
      (PassesEnd rules before patch bound →
        EndsInPass rules (some bound) before patch bound (.error (.nonConvergence bound)) ∧
          (stabilize rules (some bound) before patch).Ends (.error (.nonConvergence bound))) ∧
      (¬ PassesEnd rules before patch bound →
        (stabilizeTraced rules (some bound) before patch).Diverges ∧
          (stabilize rules (some bound) before patch).Diverges)) ∧
    -- so a run of rules that always end is over within the limit
    ((∀ rule ∈ rules, AlwaysEnds rule) → ∃ number outcome, number ≤ bound ∧
      EndsInPass rules (some bound) before patch number outcome) ∧
    -- and a higher limit, or none, keeps a result
    ∀ more, more = 0 ∨ bound ≤ more →
      (∀ result, (stabilizeTraced rules (some bound) before patch).Ends (.ok result) →
        (stabilizeTraced rules (some more) before patch).Ends (.ok result)) ∧
      ∀ object, (stabilize rules (some bound) before patch).Ends (.ok object) →
        (stabilize rules (some more) before patch).Ends (.ok object) := by
  refine ⟨⟨stabilizeTraced_zero rules before patch, ?_⟩, ?_, ?_, ?_, ?_⟩
  · rw [stabilize_eq_map_stabilizeTraced, stabilizeTraced_zero, stabilize_eq_map_stabilizeTraced]
  · intro number outcome hle hend
    have hlimit := endsInPass_limit hend hle
    rw [stabilize_eq_map_stabilizeTraced, Budgeted.ends_map_iff]
    exact ⟨hlimit, outcome, hlimit.ends_loop, rfl⟩
  · intro hlate
    refine ⟨fun hends => ?_, fun hends => ?_⟩
    · have hfails := endsInPass_nonConvergence hpos hlate hends
      rw [stabilize_eq_map_stabilizeTraced, Budgeted.ends_map_iff]
      exact ⟨hfails, _, hfails.ends_loop, rfl⟩
    · have hdiverges := stabilizeTraced_diverges_limit hends
      refine ⟨hdiverges, ?_⟩
      rw [Budgeted.diverges_iff_not_halts] at hdiverges ⊢
      rwa [stabilize_eq_map_stabilizeTraced, Budgeted.halts_map_iff]
  · intro halways
    have hends := passesEnd_of_alwaysEnds halways before patch bound
    obtain ⟨number, outcome, hle, hend⟩ | hlate := within_or_late rules before patch bound
    · exact ⟨number, outcome, hle, endsInPass_limit hend hle⟩
    · exact ⟨bound, _, Nat.le_refl _, endsInPass_nonConvergence hpos hlate hends⟩
  · intro more hmore
    refine ⟨fun result h => stabilizeTraced_raise hpos hmore h, fun object h => ?_⟩
    rw [stabilize_eq_map_stabilizeTraced, Budgeted.ends_map_iff] at h ⊢
    obtain ⟨result, hresult, hobject⟩ := h
    rcases result with e | result
    · cases hobject
    · exact ⟨_, stabilizeTraced_raise hpos hmore hresult, hobject⟩

/-- A rule that turns a field over in every pass. -/
def toggle : Rule where
  name := "toggle"
  matcher := .constant true
  transform object :=
    pure (object.insert "on" (.bool !((object.get? "on").bind Json.bool?).getD false))

theorem toggle_alwaysEnds : AlwaysEnds toggle :=
  ⟨fun _ => Budgeted.halts_pure _, fun _ => Budgeted.halts_pure _⟩

/-- The toggling run outlasts two passes. -/
theorem toggle_reaches : ∃ state, Reaches (tracedRound .nil none) ⟨.nil, [toggle], {}⟩ 2 state :=
  ⟨_, .next ⟨0, rfl⟩ (.next ⟨0, rfl⟩ .start)⟩

theorem toggle_late (number : Nat) (outcome : Outcome (Object × Trace))
    (h : EndsInPass [toggle] none .nil .nil number outcome) : 2 < number := by
  obtain ⟨state, hreach⟩ := toggle_reaches
  obtain ⟨more, rfl, hmore⟩ := hreach.endsIn_iff.mp h
  have hpos := endsIn_pos hmore
  omega

/-- The toggling run fails in its second pass if two are allowed; a run without rules, of one
pass, keeps its result. -/
theorem stabilize_limit_toggle :
    0 < 2 ∧ PassesEnd [toggle] .nil .nil 2 ∧
      EndsInPass [toggle] (some 2) .nil .nil 2 (.error (.nonConvergence 2)) ∧
      EndsInPass [] (some 2) .nil .nil 1 (.ok (.nil, ⟨1, [⟨1, []⟩], []⟩)) := by
  have hends : PassesEnd [toggle] .nil .nil 2 :=
    passesEnd_of_alwaysEnds (by simpa using toggle_alwaysEnds) .nil .nil 2
  have hfails := (stabilize_limit [toggle] .nil .nil 2 (by decide)).2.2.1 toggle_late
  have hkeeps := (stabilize_limit [] .nil .nil 2 (by decide)).2.1 1 (.ok (.nil, ⟨1, [⟨1, []⟩], []⟩))
    (by decide) (.answer ⟨0, rfl⟩)
  exact ⟨by decide, hends, (hfails.1 hends).1, hkeeps.1⟩

end TransitionRules.Run
