/-
TransitionRules/Proofs/Run/Log.lean

Runs told by place.  A record names the rules of a run, and two rules may have one name; a log tells
them apart.  Rules are given by places, and each pass is logged with the places of the rules that
matched, what their transforms made of the candidate, and the places of the rules that retired.

A log with the names of its places is the record of the run (`endsInPass_iff_logged`), and without
the log the run is the plain one (`plainEndsInPass_iff_logged`).  So what is proved of logs holds of
runs and their records, and says which rule is meant where the names do not.  A plain run does not
ask for names at all (`stabilize_anonymous`).

Main result on logs: rules retire only in a pass in which they match, once at most, and match no
more afterwards (`LogsInPass.orderly`).
-/
import TransitionRules.Proofs.Agrees
import TransitionRules.Proofs.Json.SameValue
import TransitionRules.Proofs.Run.Reference

namespace TransitionRules.Run

open Budgeted (Reaches EndsIn RoundsAgree)
open Reference (turns lastOutput idle)

variable {ι : Type}

/-! ### Logs -/

/-- What happened in one pass, told by place. -/
structure PassLog (ι : Type) where
  /-- The rules that matched. -/
  matched : List ι
  /-- What the rules that matched made of the candidate. -/
  output : Object
  /-- The rules that changed nothing. -/
  retired : List ι

/-- What happened in the passes of a run. -/
abbrev Log (ι : Type) := List (PassLog ι)

/-- The record that a log is with the names of the rules. -/
def Log.trace (name : ι → String) (log : Log ι) : Trace :=
  log.foldl (fun trace pass => trace.record (trace.iterations + 1) (pass.matched.map name)
    (pass.retired.map name)) {}

theorem Log.trace_append (name : ι → String) (log : Log ι) (pass : PassLog ι) :
    Log.trace name (log ++ [pass]) =
      (log.trace name).record ((log.trace name).iterations + 1) (pass.matched.map name)
        (pass.retired.map name) := by
  simp [Log.trace, List.foldl_append]

/-- The record counts the passes of the log. -/
theorem Log.iterations_trace (name : ι → String) (log : Log ι) :
    (log.trace name).iterations = log.length := by
  induction log using List.reverseRecOn with
  | nil => rfl
  | append_singleton log pass ih =>
    rw [Log.trace_append, List.length_append, ← ih]
    rfl

/-! ### Logged runs -/

/-- One pass over the rules of some places. -/
def loggedPass (rule : ι → Rule) (before candidate : Object) (places : List ι) :
    Budgeted (PassLog ι) := do
  let matched ← places.filterM fun place => (rule place).matcher.holds ⟨before, candidate⟩
  let results ← turns rule candidate matched
  return ⟨matched, lastOutput candidate results, idle results⟩

/-- Whether a pass leaves its candidate as it is. -/
def PassLog.isStable (pass : PassLog ι) (candidate : Object) : Bool :=
  pass.matched.isEmpty || pass.output.sameValue candidate

/-- A pass that gives back its candidate is stable, whether or not a rule matches in it. -/
theorem PassLog.isStable_of_output_eq {pass : PassLog ι} {candidate : Object}
    (h : pass.output = candidate) : pass.isStable candidate = true := by
  rw [PassLog.isStable, h, Object.sameValue_refl, Bool.or_true]

/-- Where a logged run stands between two passes. -/
structure LogState (ι : Type) where
  candidate : Object
  /-- The places of the rules that have not retired. -/
  active : List ι
  nodup : active.Nodup
  log : Log ι

/-- A logged run before its first pass. -/
def LogState.start (before patch : Object) {places : List ι} (hnodup : places.Nodup) :
    LogState ι :=
  ⟨before.overlay patch, places, hnodup, []⟩

/-- Where a logged run stands after a pass. -/
def LogState.after [DecidableEq ι] (state : LogState ι) (pass : PassLog ι) : LogState ι :=
  ⟨pass.output, state.active.filter fun place => place ∉ pass.retired, state.nodup.filter _,
    state.log ++ [pass]⟩

/-- One pass of a logged run. -/
def loggedRound [DecidableEq ι] (rule : ι → Rule) (before : Object) (limit : Option Nat)
    (state : LogState ι) : Budgeted (LogState ι ⊕ (Object × Log ι)) := do
  let pass ← loggedPass rule before state.candidate state.active
  let log := state.log ++ [pass]
  if pass.isStable state.candidate then return .inr (state.candidate, log)
  else if limitReached limit log.length then Budgeted.fail (.nonConvergence log.length)
  else return .inl ⟨pass.output, state.active.filter fun place => place ∉ pass.retired,
    state.nodup.filter _, log⟩

/-- The logged run over the rules of some places ends in the pass of this number, with this
outcome. -/
def LogsInPass [DecidableEq ι] (rule : ι → Rule) {places : List ι} (hnodup : places.Nodup)
    (limit : Option Nat) (before patch : Object) (number : Nat)
    (outcome : Outcome (Object × Log ι)) : Prop :=
  EndsIn (loggedRound rule before limit) (.start before patch hnodup) number outcome

/-! ### What a log says -/

/-- A log of passes after which the rules of these places are active. -/
structure Orderly (log : Log ι) (active : List ι) : Prop where
  /-- The rules that retire in a pass are among those that match in it, in their order. -/
  retired_sublist : ∀ pass ∈ log, pass.retired.Sublist pass.matched
  /-- A rule matches in a pass once. -/
  matched_nodup : ∀ pass ∈ log, pass.matched.Nodup
  /-- A rule that has retired matches in no later pass. -/
  later : log.Pairwise fun earlier later => ∀ place ∈ earlier.retired, place ∉ later.matched
  /-- A rule that has retired is not active. -/
  gone : ∀ pass ∈ log, ∀ place ∈ pass.retired, place ∉ active

theorem orderly_nil (active : List ι) : Orderly [] active where
  retired_sublist := by simp
  matched_nodup := by simp
  later := .nil
  gone := by simp

/-- No rule retires twice. -/
theorem Orderly.retired_nodup {log : Log ι} {active : List ι} (h : Orderly log active) :
    (log.flatMap PassLog.retired).Nodup := by
  rw [List.nodup_flatMap]
  refine ⟨fun pass hpass => (h.matched_nodup pass hpass).sublist (h.retired_sublist pass hpass), ?_⟩
  refine h.later.imp_of_mem ?_
  intro earlier later _ hlater hnot place hplace hretired
  exact hnot place hplace ((h.retired_sublist later hlater).subset hretired)

/-- The rules that match in a pass are active ones, and those that retire are among them. -/
theorem sublist_of_loggedPass {rule : ι → Rule} {before candidate : Object} {places : List ι}
    {pass : PassLog ι} (h : (loggedPass rule before candidate places).Ends (.ok pass)) :
    pass.matched.Sublist places ∧ pass.retired.Sublist pass.matched := by
  obtain ⟨matched, hmatched, h⟩ := Budgeted.ends_bind_ok_iff.mp h
  obtain ⟨results, hresults, h⟩ := Budgeted.ends_bind_ok_iff.mp h
  cases Budgeted.ends_pure_iff.mp h
  refine ⟨Budgeted.sublist_of_filterM hmatched, ?_⟩
  have hidle := Reference.idle_sublist results
  rwa [Reference.map_rule_of_turns hresults] at hidle

/-- The pass that follows so many others in the logged run comes to this.  Every pass of a run is
told in this way, whether the run ends or not. -/
def MakesPass [DecidableEq ι] (rule : ι → Rule) {places : List ι} (hnodup : places.Nodup)
    (limit : Option Nat) (before patch : Object) (count : Nat) (pass : PassLog ι) : Prop :=
  ∃ state, Reaches (loggedRound rule before limit) (.start before patch hnodup) count state ∧
    (loggedPass rule before state.candidate state.active).Ends (.ok pass)

/-! ### Logs and records -/

/-- A logged run's state with names in place of places. -/
def LogState.names (rule : ι → Rule) (state : LogState ι) : TracedState :=
  ⟨state.candidate, state.active.map rule, state.log.trace fun place => (rule place).name⟩

@[simp] theorem LogState.names_candidate (rule : ι → Rule) (state : LogState ι) :
    (state.names rule).candidate = state.candidate := rfl

@[simp] theorem LogState.names_active (rule : ι → Rule) (state : LogState ι) :
    (state.names rule).active = state.active.map rule := rfl

@[simp] theorem LogState.names_trace (rule : ι → Rule) (state : LogState ι) :
    (state.names rule).trace = state.log.trace fun place => (rule place).name := rfl

/-- A result of a logged run with names in place of places. -/
def nameLog (rule : ι → Rule) (result : Object × Log ι) : Object × Trace :=
  (result.1, result.2.trace fun place => (rule place).name)

variable [DecidableEq ι] (rule : ι → Rule)

/-- The recorded run makes the passes of the logged run. -/
theorem tracedRound_names (before : Object) (limit : Option Nat) (state : LogState ι) :
    tracedRound before limit (state.names rule) =
      Sum.map (LogState.names rule) (nameLog rule) <$> loggedRound rule before limit state := by
  simp only [tracedRound, LogState.names_candidate, LogState.names_active, LogState.names_trace,
    Reference.pass_places rule state.nodup, loggedRound, loggedPass, bind_assoc, pure_bind, map_bind,
    Log.iterations_trace, List.length_append, List.length_singleton]
  refine congrArg _ (funext fun matched => congrArg _ (funext fun results => ?_))
  -- whether a pass is stable does not depend on how its rules are told
  have hstable : ∀ names retired active, Pass.isStable
      ⟨matched.map names, lastOutput state.candidate results, retired, active⟩ state.candidate =
      PassLog.isStable ⟨matched, lastOutput state.candidate results, idle results⟩
        state.candidate := by
    intro names retired active
    rw [Pass.isStable, PassLog.isStable, List.isEmpty_map]
  rw [hstable]
  split
  · simp only [map_pure, Sum.map_inr, nameLog, Log.trace_append, Log.iterations_trace]
  · split
    · rfl
    · simp only [map_pure, Sum.map_inl, LogState.names, Log.trace_append, Log.iterations_trace]

variable {places : List ι} (hnodup : places.Nodup) (limit : Option Nat) (before patch : Object)
variable (number : Nat)

/-- The recorded run is the logged run with names in place of places. -/
theorem endsInPass_iff_logged (outcome : Outcome (Object × Trace)) :
    EndsInPass (places.map rule) limit before patch number outcome ↔
      ∃ result, LogsInPass rule hnodup limit before patch number result ∧
        outcome = result.map (nameLog rule) := by
  show EndsIn _ (LogState.names rule (.start before patch hnodup)) _ _ ↔ _
  exact Budgeted.endsIn_iff_of_map (tracedRound_names rule before limit)

/-- The plain run is the logged run without its log. -/
theorem plainEndsInPass_iff_logged (outcome : Outcome Object) :
    PlainEndsInPass (places.map rule) limit before patch number outcome ↔
      ∃ result, LogsInPass rule hnodup limit before patch number result ∧
        outcome = result.map Prod.fst := by
  simp only [plainEndsInPass_iff, endsInPass_iff_logged rule hnodup]
  constructor
  · rintro ⟨_, ⟨result, hend, rfl⟩, rfl⟩
    exact ⟨result, hend, by cases result <;> rfl⟩
  · rintro ⟨result, hend, rfl⟩
    exact ⟨_, ⟨result, hend, rfl⟩, by cases result <;> rfl⟩

/-- The recorded run over a list of rules, told by their places in the list. -/
theorem endsInPass_iff_logged_get (rules : List Rule) (outcome : Outcome (Object × Trace)) :
    EndsInPass rules limit before patch number outcome ↔
      ∃ result, LogsInPass rules.get (List.nodup_finRange _) limit before patch number result ∧
        outcome = result.map (nameLog rules.get) := by
  have h := endsInPass_iff_logged rules.get (List.nodup_finRange _) limit before patch number outcome
  rwa [List.map_get_finRange] at h

/-- The plain run over a list of rules, told by their places in the list. -/
theorem plainEndsInPass_iff_logged_get (rules : List Rule) (outcome : Outcome Object) :
    PlainEndsInPass rules limit before patch number outcome ↔
      ∃ result, LogsInPass rules.get (List.nodup_finRange _) limit before patch number result ∧
        outcome = result.map Prod.fst := by
  have h := plainEndsInPass_iff_logged rules.get (List.nodup_finRange _) limit before patch number
    outcome
  rwa [List.map_get_finRange] at h

/-! ### Names are for records -/

/-- A rule without its name and its description. -/
def anonymous (rule : Rule) : Rule := { rule with name := "", description := none }

@[simp] theorem anonymous_matcher (rule : Rule) : (anonymous rule).matcher = rule.matcher := rfl

@[simp] theorem anonymous_transform (rule : Rule) :
    (anonymous rule).transform = rule.transform := rfl

omit [DecidableEq ι] in
theorem turns_anonymous (input : Object) (places : List ι) :
    turns (fun place => anonymous (rule place)) input places = turns rule input places := by
  induction places generalizing input with
  | nil => rfl
  | cons place rest ih => simp only [turns, ih, anonymous_transform]

theorem loggedRound_anonymous (before : Object) (limit : Option Nat) :
    loggedRound (fun place => anonymous (rule place)) before limit =
      loggedRound rule before limit := by
  funext state
  simp only [loggedRound, loggedPass, turns_anonymous, anonymous_matcher]

/-- The plain run is the logged run without its log, budget by budget. -/
theorem stabilize_eq_map_loggedRound :
    stabilize (places.map rule) limit before patch =
      Prod.fst <$> Budgeted.loop (loggedRound rule before limit) (.start before patch hnodup) := by
  have htraced : stabilizeTraced (places.map rule) limit before patch =
      nameLog rule <$> Budgeted.loop (loggedRound rule before limit) (.start before patch hnodup) :=
    Budgeted.loop_map (tracedRound_names rule before limit) (.start before patch hnodup)
  rw [stabilize_eq_map_stabilizeTraced, htraced, Functor.map_map]
  rfl

/-- The names of the rules make no difference to a run. -/
theorem stabilize_anonymous (rules : List Rule) :
    stabilize (rules.map anonymous) limit before patch = stabilize rules limit before patch := by
  have hnodup := List.nodup_finRange rules.length
  have hplaces : (List.finRange rules.length).map (fun place => anonymous (rules.get place)) =
      rules.map anonymous := by
    conv_rhs => rw [← List.map_get_finRange rules, List.map_map]
    rfl
  rw [← hplaces, stabilize_eq_map_loggedRound _ hnodup, loggedRound_anonymous,
    ← stabilize_eq_map_loggedRound rules.get, List.map_get_finRange]

/-! ### Runs that end with an object -/

variable {rule hnodup limit before patch number}
variable {state : LogState ι} {pass : PassLog ι} {candidate : Object} {log : Log ι}

/-- The record of a run is a log in names. -/
theorem exists_log_of_endsInPass {rules : List Rule} {object : Object} {trace : Trace}
    (h : EndsInPass rules limit before patch number (.ok (object, trace))) :
    ∃ log, LogsInPass rules.get (List.nodup_finRange _) limit before patch number
        (.ok (object, log)) ∧
      trace = log.trace fun place => (rules.get place).name := by
  obtain ⟨e | ⟨settled, log⟩, hlog, hnames⟩ :=
    (endsInPass_iff_logged_get limit before patch number rules _).mp h
  · cases hnames
  · cases hnames
    exact ⟨log, hlog, rfl⟩

/-- A log in names is the record of the run over the rules of its places. -/
theorem LogsInPass.endsInPass {object : Object}
    (h : LogsInPass rule hnodup limit before patch number (.ok (object, log))) :
    EndsInPass (places.map rule) limit before patch number
      (.ok (object, log.trace fun place => (rule place).name)) :=
  (endsInPass_iff_logged rule hnodup limit before patch number _).mpr ⟨_, h, rfl⟩

/-! ### The logs of runs are orderly -/

/-- One more pass keeps a log orderly. -/
theorem Orderly.append (h : Orderly log places) (hnodup : places.Nodup)
    (hpass : (loggedPass rule before candidate places).Ends (.ok pass)) :
    Orderly (log ++ [pass]) (places.filter fun place => place ∉ pass.retired) := by
  obtain ⟨hmatched, hretired⟩ := sublist_of_loggedPass hpass
  refine { retired_sublist := ?_, matched_nodup := ?_, later := ?_, gone := ?_ }
  · rw [List.forall_mem_append]
    exact ⟨h.retired_sublist, by simpa using hretired⟩
  · rw [List.forall_mem_append]
    exact ⟨h.matched_nodup, by simpa using hnodup.sublist hmatched⟩
  · -- what retired before is not active, and only active rules match
    rw [List.pairwise_append]
    refine ⟨h.later, List.pairwise_singleton _ _, ?_⟩
    intro earlier hearlier last hlast place hplace hmatch
    obtain rfl := List.mem_singleton.mp hlast
    exact h.gone earlier hearlier place hplace (hmatched.subset hmatch)
  · intro earlier hearlier place hplace hactive
    rw [List.mem_filter, decide_eq_true_iff] at hactive
    obtain hold | hnew := List.mem_append.mp hearlier
    · exact h.gone earlier hold place hplace hactive.1
    · obtain rfl := List.mem_singleton.mp hnew
      exact hactive.2 hplace

/-- A round of a logged run, read off its pass. -/
theorem loggedRound_of_pass (limit : Option Nat)
    (h : (loggedPass rule before state.candidate state.active).Ends (.ok pass)) :
    (loggedRound rule before limit state).Ends
      (if pass.isStable state.candidate then .ok (.inr (state.candidate, state.log ++ [pass]))
      else if limitReached limit (state.log.length + 1) then
        .error (.nonConvergence (state.log.length + 1))
      else .ok (.inl (state.after pass))) := by
  apply Budgeted.ends_bind_iff.mpr
  refine .inr ⟨pass, h, ?_⟩
  dsimp only
  rw [List.length_append, List.length_singleton]
  split
  · exact Budgeted.ends_pure_iff.mpr rfl
  · split
    · exact Budgeted.ends_fail_iff.mpr rfl
    · exact Budgeted.ends_pure_iff.mpr rfl

/-- What a round of a logged run leads to. -/
theorem loggedRound_cases {next : LogState ι ⊕ (Object × Log ι)}
    (h : (loggedRound rule before limit state).Ends (.ok next)) :
    ∃ pass, (loggedPass rule before state.candidate state.active).Ends (.ok pass) ∧
      (next = .inr (state.candidate, state.log ++ [pass]) ∨
        pass.isStable state.candidate = false ∧
          next = .inl ⟨pass.output, state.active.filter fun place => place ∉ pass.retired,
            state.nodup.filter _, state.log ++ [pass]⟩) := by
  obtain ⟨pass, hpass, h⟩ := Budgeted.ends_bind_ok_iff.mp h
  refine ⟨pass, hpass, ?_⟩
  dsimp only at h
  split at h
  · exact .inl (Except.ok.inj (Budgeted.ends_pure_iff.mp h))
  · next hstable =>
    split at h
    · cases Budgeted.ends_fail_iff.mp h
    · exact .inr ⟨by simpa using hstable, Except.ok.inj (Budgeted.ends_pure_iff.mp h)⟩

/-- A round after which a logged run goes on. -/
theorem loggedRound_inl {later : LogState ι}
    (h : (loggedRound rule before limit state).Ends (.ok (.inl later))) :
    ∃ pass, (loggedPass rule before state.candidate state.active).Ends (.ok pass) ∧
      pass.isStable state.candidate = false ∧
      later = ⟨pass.output, state.active.filter fun place => place ∉ pass.retired,
        state.nodup.filter _, state.log ++ [pass]⟩ := by
  obtain ⟨pass, hpass, h | ⟨hstable, h⟩⟩ := loggedRound_cases h
  · cases h
  · exact ⟨pass, hpass, hstable, Sum.inl.inj h⟩

/-- A round that ends a logged run. -/
theorem loggedRound_inr {result : Object × Log ι}
    (h : (loggedRound rule before limit state).Ends (.ok (.inr result))) :
    ∃ pass, (loggedPass rule before state.candidate state.active).Ends (.ok pass) ∧
      result = (state.candidate, state.log ++ [pass]) := by
  obtain ⟨pass, hpass, h | ⟨-, h⟩⟩ := loggedRound_cases h
  · exact ⟨pass, hpass, Sum.inr.inj h⟩
  · cases h

/-- Between its passes, the log of a run is orderly. -/
theorem orderly_of_reaches {count : Nat} {later : LogState ι}
    (h : Reaches (loggedRound rule before limit) state count later)
    (hstate : Orderly state.log state.active) : Orderly later.log later.active := by
  refine h.keeps (P := fun state => Orderly state.log state.active)
    (fun state next hround horderly => ?_) hstate
  obtain ⟨pass, hpass, -, rfl⟩ := loggedRound_inl hround
  exact horderly.append state.nodup hpass

/-- The log of a whole run is orderly. -/
theorem LogsInPass.orderly {object : Object}
    (h : LogsInPass rule hnodup limit before patch number (.ok (object, log))) :
    ∃ active, Orderly log active := by
  obtain ⟨_, state, -, hreach, hlast⟩ := h.last
  obtain ⟨pass, hpass, hresult⟩ := loggedRound_inr hlast
  cases hresult
  exact ⟨_, (orderly_of_reaches hreach (orderly_nil _)).append state.nodup hpass⟩

end TransitionRules.Run
