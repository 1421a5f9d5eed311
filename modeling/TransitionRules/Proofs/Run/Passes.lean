/-
TransitionRules/Proofs/Run/Passes.lean

What holds of every pass of a run, and runs told pass by pass.  A recorded run is a plain run with
a record beside it (`stabilize_eq_map_stabilizeTraced`), its record counts the passes
(`iterations_of_reaches`), and rules only ever leave its active ones (`active_sublist_of_reaches`).

`EndsInPass` says in which pass a recorded run ends, `PlainEndsInPass` in which a plain one does, and
`PassesEnd` that the passes themselves do; they do if the matchers and the transforms of the rules
always end (`passesEnd_of_alwaysEnds`).
-/
import TransitionRules.Proofs.Agrees
import TransitionRules.Run.Stabilize

namespace TransitionRules.Run

open Budgeted (Reaches EndsIn)

/-! ### Recorded runs and plain runs -/

/-- A state of a recorded run without its record, of which only the number of passes is kept. -/
def TracedState.forget (state : TracedState) : State :=
  ⟨state.trace.iterations, state.candidate, state.active⟩

/-- A recorded pass is a plain pass with a record beside it. -/
theorem round_forget (before : Object) (limit : Option Nat) (state : TracedState) :
    round before limit state.forget =
      Sum.map TracedState.forget Prod.fst <$> tracedRound before limit state := by
  simp only [round, tracedRound, map_bind]
  refine congrArg _ (funext fun pass => ?_)
  show (if pass.isStable state.candidate then _ else _) = _
  split
  · rw [map_pure]
    rfl
  · show (if limitReached limit (state.trace.iterations + 1) then _ else _) = _
    split
    · rfl
    · rw [map_pure]
      rfl

theorem stabilize_eq_map_stabilizeTraced (rules : List Rule) (limit : Option Nat)
    (before patch : Object) :
    stabilize rules limit before patch = Prod.fst <$> stabilizeTraced rules limit before patch :=
  Budgeted.loop_map (round_forget before limit) ⟨before.overlay patch, rules, {}⟩

/-! ### Runs pass by pass -/

/-- The recorded run ends in the pass of this number, with this outcome. -/
def EndsInPass (rules : List Rule) (limit : Option Nat) (before patch : Object) (number : Nat)
    (outcome : Outcome (Object × Trace)) : Prop :=
  EndsIn (tracedRound before limit) ⟨before.overlay patch, rules, {}⟩ number outcome

/-- The plain run ends in the pass of this number, with this outcome. -/
def PlainEndsInPass (rules : List Rule) (limit : Option Nat) (before patch : Object) (number : Nat)
    (outcome : Outcome Object) : Prop :=
  EndsIn (round before limit) ⟨0, before.overlay patch, rules⟩ number outcome

theorem stabilize_ends_iff {rules : List Rule} {limit : Option Nat} {before patch : Object}
    {outcome : Outcome Object} :
    (stabilize rules limit before patch).Ends outcome ↔
      ∃ number, PlainEndsInPass rules limit before patch number outcome :=
  Budgeted.loop_ends_iff

/-- Runs that end in the same passes, with the same outcomes, go on for ever together. -/
theorem stabilize_diverges_iff {rules rules' : List Rule} {limit : Option Nat}
    {before patch : Object}
    (h : ∀ number outcome, PlainEndsInPass rules limit before patch number outcome ↔
      PlainEndsInPass rules' limit before patch number outcome) :
    (stabilize rules limit before patch).Diverges ↔
      (stabilize rules' limit before patch).Diverges := by
  simp only [Budgeted.diverges_iff_not_halts, Budgeted.Halts, stabilize_ends_iff, h]

/-- The plain run ends in the pass in which the recorded run does, with its object or its error. -/
theorem plainEndsInPass_iff {rules : List Rule} {limit : Option Nat} {before patch : Object}
    {number : Nat} {outcome : Outcome Object} :
    PlainEndsInPass rules limit before patch number outcome ↔
      ∃ result, EndsInPass rules limit before patch number result ∧
        outcome = result.map Prod.fst := by
  show EndsIn _ (TracedState.forget ⟨before.overlay patch, rules, {}⟩) _ _ ↔ _
  exact Budgeted.endsIn_iff_of_map (round_forget before limit)

theorem stabilizeTraced_ends_iff {rules : List Rule} {limit : Option Nat} {before patch : Object}
    {outcome : Outcome (Object × Trace)} :
    (stabilizeTraced rules limit before patch).Ends outcome ↔
      ∃ number, EndsInPass rules limit before patch number outcome :=
  Budgeted.loop_ends_iff

variable {before : Object} {limit : Option Nat} {state later : TracedState}

/-- A pass after which the run goes on hands the output and the active rules of the pass to the
next one, and counts. -/
theorem tracedRound_inl (h : (tracedRound before limit state).Ends (.ok (.inl later))) :
    ∃ result, (pass before state.candidate state.active).Ends (.ok result) ∧
      result.isStable state.candidate = false ∧
      limitReached limit (state.trace.iterations + 1) = false ∧
      later = ⟨result.output, result.active,
        state.trace.record (state.trace.iterations + 1) result.matched result.retired⟩ := by
  obtain ⟨result, hresult, h⟩ := Budgeted.ends_bind_ok_iff.mp h
  refine ⟨result, hresult, ?_⟩
  dsimp only at h
  split at h
  · cases Budgeted.ends_pure_iff.mp h
  · next hstable =>
    split at h
    · cases Budgeted.ends_fail_iff.mp h
    · next hlimit =>
      cases Budgeted.ends_pure_iff.mp h
      exact ⟨by simpa using hstable, by simpa using hlimit, rfl⟩

/-- A pass that ends a run is stable, and the run's object is the candidate of the pass. -/
theorem tracedRound_inr_iff {result : Object × Trace} :
    (tracedRound before limit state).Ends (.ok (.inr result)) ↔
      ∃ last, (pass before state.candidate state.active).Ends (.ok last) ∧
        last.isStable state.candidate = true ∧
        result = (state.candidate,
          state.trace.record (state.trace.iterations + 1) last.matched last.retired) := by
  constructor
  · intro h
    obtain ⟨last, hlast, h⟩ := Budgeted.ends_bind_ok_iff.mp h
    refine ⟨last, hlast, ?_⟩
    dsimp only at h
    split at h
    · next hstable =>
      cases Budgeted.ends_pure_iff.mp h
      exact ⟨hstable, rfl⟩
    · split at h
      · cases Budgeted.ends_fail_iff.mp h
      · cases Budgeted.ends_pure_iff.mp h
  · rintro ⟨last, hlast, hstable, rfl⟩
    refine Budgeted.ends_bind_ok_iff.mpr ⟨last, hlast, ?_⟩
    dsimp only
    rw [if_pos hstable]
    exact Budgeted.ends_pure_iff.mpr rfl

/-- The record of a run counts its passes. -/
theorem iterations_of_reaches {count : Nat}
    (h : Reaches (tracedRound before limit) state count later) :
    later.trace.iterations = state.trace.iterations + count := by
  induction h with
  | start => rfl
  | next hround _ ih =>
    obtain ⟨result, -, -, -, rfl⟩ := tracedRound_inl hround
    rw [ih]
    simp only [Trace.record]
    omega

theorem iterations_of_endsInPass {rules : List Rule} {patch object : Object} {trace : Trace}
    {number : Nat} (h : EndsInPass rules limit before patch number (.ok (object, trace))) :
    trace.iterations = number := by
  obtain ⟨earlier, state, rfl, hreach, hlast⟩ := h.last
  obtain ⟨last, -, -, hresult⟩ := tracedRound_inr_iff.mp hlast
  cases hresult
  show state.trace.iterations + 1 = earlier + 1
  rw [iterations_of_reaches hreach, Nat.zero_add]

/-! ### Selected rules and active rules -/

/-- The matchers of a pass filter its entries. -/
theorem select_eq_filterM (context : Context) (entries : List (Rule × Nat)) :
    select context entries = entries.filterM fun entry => entry.1.matcher.holds context := by
  induction entries with
  | nil => simp [select]
  | cons entry rest ih => rw [Budgeted.filterM_cons, select, ih]

/-- The rules selected in a pass are among the ones asked, in the same order. -/
theorem select_sublist {context : Context} {entries selected : List (Rule × Nat)}
    (h : (select context entries).Ends (.ok selected)) : selected.Sublist entries := by
  rw [select_eq_filterM] at h
  exact Budgeted.sublist_of_filterM h

theorem retain_sublist (active : List Rule) (slots : List Nat) :
    (retain active slots).Sublist active := by
  have h : (retain active slots).Sublist (active.zipIdx.map Prod.fst) :=
    List.Sublist.map Prod.fst List.filter_sublist
  rwa [List.zipIdx_map_fst] at h

/-- If no rule retires, all stay active. -/
theorem retain_nil (active : List Rule) : retain active [] = active := by
  have hall : active.zipIdx.filter (fun entry => !([] : List Nat).contains entry.2) =
      active.zipIdx := List.filter_eq_self.mpr (by simp)
  rw [retain, hall, List.zipIdx_map_fst]

/-- The rules that stay active were active before, in the same order. -/
theorem active_sublist_of_pass {candidate : Object} {active : List Rule} {result : Pass}
    (h : (pass before candidate active).Ends (.ok result)) : result.active.Sublist active := by
  obtain ⟨selected, -, h⟩ := Budgeted.ends_bind_ok_iff.mp h
  obtain ⟨effect, -, h⟩ := Budgeted.ends_bind_ok_iff.mp h
  cases Budgeted.ends_pure_iff.mp h
  exact retain_sublist active _

/-- Rules only ever leave the active ones. -/
theorem active_sublist_of_reaches {count : Nat}
    (h : Reaches (tracedRound before limit) state count later) :
    later.active.Sublist state.active := by
  refine h.keeps (P := fun later => later.active.Sublist state.active)
    (fun middle next hround hactive => ?_) (.refl _)
  obtain ⟨result, hresult, -, -, rfl⟩ := tracedRound_inl hround
  exact (active_sublist_of_pass hresult).trans hactive

/-! ### Passes that end -/

/-- The matcher and the transform of a rule end on all objects. -/
def AlwaysEnds (rule : Rule) : Prop :=
  (∀ context, (rule.matcher.holds context).Halts) ∧ ∀ object, (rule.transform object).Halts

theorem select_halts {context : Context} {entries : List (Rule × Nat)}
    (h : ∀ entry ∈ entries, AlwaysEnds entry.1) : (select context entries).Halts := by
  induction entries with
  | nil => exact Budgeted.halts_pure _
  | cons entry rest ih =>
    rw [List.forall_mem_cons] at h
    refine (h.1.1 context).bind fun holds _ => ?_
    exact (ih h.2).bind fun selected _ => Budgeted.halts_pure _

theorem perform_halts {input : Object} {selected : List (Rule × Nat)}
    (h : ∀ entry ∈ selected, AlwaysEnds entry.1) : (perform input selected).Halts := by
  induction selected generalizing input with
  | nil => exact Budgeted.halts_pure _
  | cons entry rest ih =>
    rw [List.forall_mem_cons] at h
    refine (h.1.2 input).bind fun output _ => (ih h.2).bind fun effect _ => ?_
    split
    · exact Budgeted.halts_pure _
    · exact Budgeted.halts_pure _

/-- A pass over rules that always end does so itself. -/
theorem pass_halts {candidate : Object} {active : List Rule} (h : ∀ rule ∈ active, AlwaysEnds rule) :
    (pass before candidate active).Halts := by
  have hentries : ∀ entry ∈ active.zipIdx, AlwaysEnds entry.1 := fun entry hentry =>
    h entry.1 (List.fst_mem_of_mem_zipIdx hentry)
  refine (select_halts hentries).bind fun selected hselected => ?_
  -- the transforms run are those of selected rules, which are active ones
  have hsub := (select_sublist hselected).subset
  refine (perform_halts fun entry hentry => hentries entry (hsub hentry)).bind fun effect _ => ?_
  exact Budgeted.halts_pure _

/-- A round of a run ends exactly if its pass does. -/
theorem tracedRound_halts_iff :
    (tracedRound before limit state).Halts ↔
      (pass before state.candidate state.active).Halts := by
  refine ⟨Budgeted.Halts.of_bind, fun h => h.bind fun result _ => ?_⟩
  dsimp only
  split
  · exact Budgeted.halts_pure _
  · split
    · exact Budgeted.halts_fail _
    · exact Budgeted.halts_pure _

/-- Of the passes that a run without limit comes to, the first so many end. -/
def PassesEnd (rules : List Rule) (before patch : Object) (count : Nat) : Prop :=
  ∀ number state, number < count →
    Reaches (tracedRound before none) ⟨before.overlay patch, rules, {}⟩ number state →
    (pass before state.candidate state.active).Halts

theorem passesEnd_of_alwaysEnds {rules : List Rule} (h : ∀ rule ∈ rules, AlwaysEnds rule)
    (before patch : Object) (count : Nat) : PassesEnd rules before patch count :=
  fun _ _ _ hreach => pass_halts fun rule hrule =>
    h rule ((active_sublist_of_reaches hreach).subset hrule)

end TransitionRules.Run
