/-
TransitionRules/Proofs/Run/Reference.lean

A run told over the rules as they were given.  The runs of `Run.stabilize` number the active rules
anew in every pass; here a rule keeps its place in the given list, and what changes is the set of
retired places, which only grows.  In each pass

* the matchers of the rules that are not retired are asked in order;
* the rules that matched take their turns, each on what the one before made;
* the rules whose turn was idle, the output having the value of the input, retire;
* the run ends with the candidate of the pass if nothing matched or the last output has its value.

Main result: the reference run is the recorded run, and without its record the plain one, as
computations, so they have the same objects, records and errors and go on for ever together
(`stabilizeTraced_eq_reference`, `stabilize_eq_reference`).  The bridge is `State.active`, which
reads the active list off a set of retired places, and the step lemma is `tracedRound_active`.
-/
import Mathlib.Data.Finset.Basic
import Mathlib.Data.List.FinRange
import TransitionRules.Proofs.Run.Passes

namespace TransitionRules.Run.Reference

variable {ι κ : Type}

/-! ### The reference run -/

/-- A rule's turn in a pass: the object it got and the object it made. -/
structure Turn (ι : Type) where
  rule : ι
  input : Object
  output : Object

/-- Whether a turn left its object as it was. -/
def Turn.isIdle (turn : Turn ι) : Bool := turn.output.sameValue turn.input

/-- The turns of rules one after the other, the first on the given object. -/
def turns (rule : ι → Rule) (input : Object) : List ι → Budgeted (List (Turn ι))
  | [] => pure []
  | place :: rest => do
    let output ← (rule place).transform input
    let later ← turns rule output rest
    return ⟨place, input, output⟩ :: later

/-- What the last turn made; without any turn, the object at the start. -/
def lastOutput (input : Object) (turns : List (Turn ι)) : Object :=
  (turns.getLast?.map Turn.output).getD input

/-- The rules whose turns were idle. -/
def idle (turns : List (Turn ι)) : List ι := (turns.filter Turn.isIdle).map Turn.rule

/-- Where a reference run stands between two passes. -/
structure State (count : Nat) where
  candidate : Object
  /-- The places of the rules that have retired. -/
  retired : Finset (Fin count)
  trace : Trace

variable (rules : List Rule)

/-- The places of the rules that have not retired, in order. -/
def remaining (retired : Finset (Fin rules.length)) : List (Fin rules.length) :=
  (List.finRange rules.length).filter fun place => place ∉ retired

/-- The rules among those of the given places whose matchers hold. -/
def matching (context : Context) (places : List (Fin rules.length)) :
    Budgeted (List (Fin rules.length)) :=
  places.filterM fun place => (rules.get place).matcher.holds context

/-- One pass of the reference run. -/
def round (before : Object) (limit : Option Nat) (state : State rules.length) :
    Budgeted (State rules.length ⊕ (Object × Trace)) := do
  let matched ← matching rules ⟨before, state.candidate⟩ (remaining rules state.retired)
  let turns ← turns rules.get state.candidate matched
  let output := lastOutput state.candidate turns
  let number := state.trace.iterations + 1
  let trace : Trace := {
    iterations := number
    passes := state.trace.passes ++ [⟨number, matched.map fun place => (rules.get place).name⟩]
    retired := state.trace.retired ++ (idle turns).map fun place => ⟨(rules.get place).name, number⟩ }
  if matched = [] ∨ output.sameValue state.candidate then return .inr (state.candidate, trace)
  else if limit.any fun cap => 0 < cap ∧ cap ≤ number then Budgeted.fail (.nonConvergence number)
  else return .inl ⟨output, state.retired ∪ (idle turns).toFinset, trace⟩

/-- The reference run. -/
def run (limit : Option Nat) (before patch : Object) : Budgeted (Object × Trace) :=
  Budgeted.loop (round rules before limit) ⟨before.overlay patch, ∅, {}⟩

variable {rules}

/-- The reference run's state as the recorded run sees it: the rules left of the given ones. -/
def State.active (state : State rules.length) : TracedState :=
  ⟨state.candidate, (remaining rules state.retired).map rules.get, state.trace⟩

@[simp] theorem State.active_candidate (state : State rules.length) :
    state.active.candidate = state.candidate := rfl

@[simp] theorem State.active_active (state : State rules.length) :
    state.active.active = (remaining rules state.retired).map rules.get := rfl

@[simp] theorem State.active_trace (state : State rules.length) :
    state.active.trace = state.trace := rfl

/-! ### Turns -/

/-- A turn with its rule relabelled. -/
def Turn.relabel (f : κ → ι) (turn : Turn κ) : Turn ι := ⟨f turn.rule, turn.input, turn.output⟩

/-- Turns commute with relabelling. -/
theorem turns_map (rule : ι → Rule) (f : κ → ι) (input : Object) (places : List κ) :
    turns rule input (places.map f) =
      List.map (Turn.relabel f) <$> turns (rule ∘ f) input places := by
  induction places generalizing input with
  | nil => simp [turns]
  | cons place rest ih =>
    simp only [List.map_cons, turns, ih, map_bind, bind_map_left, map_pure, Function.comp_apply]
    rfl

/-- Every rule has one turn, in order. -/
theorem map_rule_of_turns {rule : ι → Rule} {input : Object} {places : List ι}
    {results : List (Turn ι)} (h : (turns rule input places).Ends (.ok results)) :
    results.map Turn.rule = places := by
  induction places generalizing input results with
  | nil =>
    cases Budgeted.ends_pure_iff.mp h
    rfl
  | cons place rest ih =>
    obtain ⟨output, -, h⟩ := Budgeted.ends_bind_ok_iff.mp h
    obtain ⟨later, hlater, h⟩ := Budgeted.ends_bind_ok_iff.mp h
    cases Budgeted.ends_pure_iff.mp h
    rw [List.map_cons, ih hlater]

theorem lastOutput_relabel (f : κ → ι) (input : Object) (turns : List (Turn κ)) :
    lastOutput input (turns.map (Turn.relabel f)) = lastOutput input turns := by
  rw [lastOutput, List.getLast?_map, Option.map_map]
  rfl

theorem idle_relabel (f : κ → ι) (turns : List (Turn κ)) :
    idle (turns.map (Turn.relabel f)) = (idle turns).map f := by
  simp only [idle, List.filter_map, List.map_map]
  rfl

theorem idle_sublist (turns : List (Turn ι)) : (idle turns).Sublist (turns.map Turn.rule) :=
  List.Sublist.map _ List.filter_sublist

theorem lastOutput_cons (input : Object) (turn : Turn ι) (rest : List (Turn ι)) :
    lastOutput input (turn :: rest) = lastOutput turn.output rest := by
  cases rest with
  | nil => rfl
  | cons next rest =>
    rw [lastOutput, lastOutput, List.getLast?_cons_cons, List.getLast?_cons]
    rfl

/-- The transforms of a pass are turns of which the last output and the idle rules are kept. -/
theorem perform_eq_map_turns (input : Object) (selected : List (Rule × Nat)) :
    perform input selected =
      (fun results => ⟨lastOutput input results, idle results⟩) <$>
        turns Prod.fst input selected := by
  induction selected generalizing input with
  | nil => simp [perform, turns, lastOutput, idle]
  | cons entry rest ih =>
    obtain ⟨rule, slot⟩ := entry
    simp only [perform, turns, ih, map_bind, bind_map_left, map_pure, lastOutput_cons]
    refine congrArg _ (funext fun output => congrArg _ (funext fun results => ?_))
    by_cases h : output.sameValue input <;> simp [idle, Turn.isIdle, h]

/-! ### Slots and places -/

theorem zipIdx_map_prod (f : κ → ι) (items : List κ) :
    (items.map f).zipIdx = items.zipIdx.map (Prod.map f id) := by
  simp [List.zipIdx_map]

/-- In a list without repetition, an item and its slot determine each other. -/
theorem fst_eq_iff_snd_eq {items : List ι} (hnodup : items.Nodup) {first second : ι × Nat}
    (hfirst : first ∈ items.zipIdx) (hsecond : second ∈ items.zipIdx) :
    first.1 = second.1 ↔ first.2 = second.2 := by
  rw [List.mem_zipIdx_iff_getElem?] at hfirst hsecond
  constructor
  · intro h
    have hlt : first.2 < items.length := (List.getElem?_eq_some_iff.mp hfirst).1
    rw [h, ← hsecond] at hfirst
    exact (List.getElem?_inj hlt hnodup).mp hfirst
  · intro h
    rw [h, hsecond] at hfirst
    exact (Option.some.inj hfirst).symm

/-- Retiring by slot is retiring by place: of the active items, those stay whose places are not
among the retired ones, and they move up. -/
theorem retain_map [DecidableEq ι] {rule : ι → Rule} {items : List ι} (hnodup : items.Nodup)
    {gone : List (ι × Nat)} (hgone : gone ⊆ items.zipIdx) :
    retain (items.map rule) (gone.map Prod.snd) =
      (items.filter fun item => item ∉ gone.map Prod.fst).map rule := by
  have hslots : ∀ entry ∈ items.zipIdx,
      (!(gone.map Prod.snd).contains entry.2) = decide (entry.1 ∉ gone.map Prod.fst) := by
    intro entry hentry
    have hiff : entry.2 ∈ gone.map Prod.snd ↔ entry.1 ∈ gone.map Prod.fst := by
      simp only [List.mem_map]
      constructor
      · rintro ⟨other, hother, h⟩
        exact ⟨other, hother, (fst_eq_iff_snd_eq hnodup (hgone hother) hentry).mpr h⟩
      · rintro ⟨other, hother, h⟩
        exact ⟨other, hother, (fst_eq_iff_snd_eq hnodup (hgone hother) hentry).mp h⟩
    rw [List.contains_eq_mem, decide_not, decide_eq_decide.mpr hiff]
  have hitems : items.filter (fun item => item ∉ gone.map Prod.fst) =
      (items.zipIdx.filter fun entry => entry.1 ∉ gone.map Prod.fst).map Prod.fst := by
    conv_lhs => rw [← List.zipIdx_map_fst 0 items]
    rw [List.filter_map]
    rfl
  rw [retain, zipIdx_map_prod, List.filter_map, List.map_map, hitems, List.map_map]
  refine congrArg (List.map _) (List.filter_congr hslots)

/-! ### One pass -/

/-- A pass over rules given by place: the rules that changed nothing leave by place. -/
theorem pass_places [DecidableEq ι] (rule : ι → Rule) {places : List ι} (hnodup : places.Nodup)
    (before candidate : Object) :
    pass before candidate (places.map rule) = do
      let matched ← places.filterM fun place => (rule place).matcher.holds ⟨before, candidate⟩
      let results ← turns rule candidate matched
      return {
        matched := matched.map fun place => (rule place).name
        output := lastOutput candidate results
        retired := (idle results).map fun place => (rule place).name
        active := (places.filter fun place => place ∉ idle results).map rule } := by
  -- both sides read off the same turns of rules that carry their place and their slot
  have hplaces : (places.filterM fun place => (rule place).matcher.holds ⟨before, candidate⟩) =
      List.map Prod.fst <$> places.zipIdx.filterM
        fun entry => (rule entry.1).matcher.holds ⟨before, candidate⟩ := by
    conv_lhs => rw [← List.zipIdx_map_fst 0 places, Budgeted.filterM_map]
    rfl
  have hslots : select ⟨before, candidate⟩ (places.map rule).zipIdx =
      List.map (Prod.map rule id) <$> places.zipIdx.filterM
        fun entry => (rule entry.1).matcher.holds ⟨before, candidate⟩ := by
    rw [select_eq_filterM, zipIdx_map_prod, Budgeted.filterM_map]
    rfl
  simp only [pass, hslots, hplaces, bind_map_left, perform_eq_map_turns, turns_map,
    lastOutput_relabel, idle_relabel, List.map_map]
  refine Budgeted.bind_congr_of_ends fun entries hentries => ?_
  refine Budgeted.bind_congr_of_ends fun results hresults => ?_
  have hidle : idle results ⊆ places.zipIdx := by
    have hsub := idle_sublist results
    rw [map_rule_of_turns hresults] at hsub
    exact (hsub.trans (Budgeted.sublist_of_filterM hentries)).subset
  have hactive : retain (places.map rule) ((idle results).map Prod.snd) =
      (places.filter fun place => place ∉ (idle results).map Prod.fst).map rule :=
    retain_map hnodup hidle
  rw [← hactive]
  rfl

theorem remaining_nodup (retired : Finset (Fin rules.length)) :
    (remaining rules retired).Nodup :=
  (List.nodup_finRange rules.length).filter _

/-- More rules retired, fewer remain. -/
theorem remaining_union (retired : Finset (Fin rules.length)) (places : List (Fin rules.length)) :
    remaining rules (retired ∪ places.toFinset) =
      (remaining rules retired).filter fun place => place ∉ places := by
  simp only [remaining, List.filter_filter]
  refine List.filter_congr fun place _ => ?_
  simp [not_or, Bool.and_comm]

/-- A pass over the remaining rules, told by place. -/
theorem pass_remaining (before candidate : Object) (retired : Finset (Fin rules.length)) :
    pass before candidate ((remaining rules retired).map rules.get) = do
      let matched ← matching rules ⟨before, candidate⟩ (remaining rules retired)
      let results ← turns rules.get candidate matched
      return {
        matched := matched.map fun place => (rules.get place).name
        output := lastOutput candidate results
        retired := (idle results).map fun place => (rules.get place).name
        active := (remaining rules (retired ∪ (idle results).toFinset)).map rules.get } := by
  simp only [pass_places rules.get (remaining_nodup retired), remaining_union]
  rfl

theorem limitReached_eq_any (limit : Option Nat) (passes : Nat) :
    limitReached limit passes = limit.any fun cap => 0 < cap ∧ cap ≤ passes := by
  cases limit with
  | none => rfl
  | some cap => simp [limitReached]

/-- The recorded run makes the passes of the reference run. -/
theorem tracedRound_active (before : Object) (limit : Option Nat) (state : State rules.length) :
    tracedRound before limit state.active =
      Sum.map State.active id <$> round rules before limit state := by
  simp only [tracedRound, State.active_candidate, State.active_active, State.active_trace,
    pass_remaining, round, bind_assoc, pure_bind, map_bind]
  refine congrArg _ (funext fun matched => congrArg _ (funext fun results => ?_))
  simp only [Pass.isStable, List.isEmpty_map, Bool.or_eq_true, List.isEmpty_iff,
    limitReached_eq_any]
  split
  · simp only [map_pure, Trace.record, List.map_map]
    rfl
  · split
    · rfl
    · simp only [map_pure, Trace.record, List.map_map]
      rfl

/-! ### The run -/

theorem stabilizeTraced_eq_run (rules : List Rule) (limit : Option Nat) (before patch : Object) :
    stabilizeTraced rules limit before patch = run rules limit before patch := by
  have hstart : (⟨before.overlay patch, rules, {}⟩ : TracedState) =
      (⟨before.overlay patch, ∅, {}⟩ : State rules.length).active := by
    simp [State.active, remaining]
  rw [stabilizeTraced, hstart, Budgeted.loop_map (tracedRound_active before limit), run, id_map]

/-- **Runs are reference runs.**  With a record and without one, for every list of rules and every
limit, the run over active rules and the run over places with a growing set of retired ones are the
same computation. -/
theorem stabilize_eq_reference (rules : List Rule) (limit : Option Nat) (before patch : Object) :
    stabilizeTraced rules limit before patch = run rules limit before patch ∧
      stabilize rules limit before patch = Prod.fst <$> run rules limit before patch := by
  refine ⟨stabilizeTraced_eq_run rules limit before patch, ?_⟩
  rw [stabilize_eq_map_stabilizeTraced, stabilizeTraced_eq_run]

end TransitionRules.Run.Reference
