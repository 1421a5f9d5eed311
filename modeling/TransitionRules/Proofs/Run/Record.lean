/-
TransitionRules/Proofs/Run/Record.lean

What the record of a run says.  Its passes are numbered from one, and only the last of them may
match no rule.  A pass goes over the rules that no pass before has retired; those that match are
recorded in the order of the rules, and those that retire are among them.  So no rule retires twice,
and none that has retired matches again.

All of this is about places: two rules may have one name.  So it is said of the log that the record
is with names (`Log.Tells`), and read off for the names from there (`Trace.WellKept`).

Main result: `record_of_run`.
-/
import TransitionRules.Proofs.Run.Log
import TransitionRules.Proofs.Run.Settled

namespace TransitionRules

/-! ### Names in the order of their first occurrence -/

/-- The names of a list, each one once, in the order of their first occurrence. -/
structure FirstOccurrences (names all : List String) : Prop where
  nodup : names.Nodup
  mem_iff : ∀ name, name ∈ names ↔ name ∈ all
  ordered : names.Pairwise fun first second => all.idxOf first < all.idxOf second

namespace FirstOccurrences

variable {known done : List String}

/-- A name that has occurred before changes nothing. -/
theorem append_known (h : FirstOccurrences known done) {name : String} (hname : name ∈ known) :
    FirstOccurrences known (done ++ [name]) where
  nodup := h.nodup
  mem_iff other := by
    rw [h.mem_iff, List.mem_append, List.mem_singleton]
    refine ⟨.inl, fun hother => hother.elim id ?_⟩
    rintro rfl
    exact (h.mem_iff other).mp hname
  ordered := by
    refine h.ordered.imp_of_mem fun hfirst hsecond hlt => ?_
    rwa [List.idxOf_append_of_mem ((h.mem_iff _).mp hfirst),
      List.idxOf_append_of_mem ((h.mem_iff _).mp hsecond)]

/-- A name that occurs for the first time comes last. -/
theorem append_new (h : FirstOccurrences known done) {name : String} (hname : name ∉ known) :
    FirstOccurrences (known ++ [name]) (done ++ [name]) where
  nodup := by
    rw [List.nodup_append_comm, List.singleton_append, List.nodup_cons]
    exact ⟨hname, h.nodup⟩
  mem_iff other := by rw [List.mem_append, List.mem_append, h.mem_iff]
  ordered := by
    have hnew : name ∉ done := fun hdone => hname ((h.mem_iff name).mpr hdone)
    have hplace : ∀ other ∈ known, (done ++ [name]).idxOf other = done.idxOf other :=
      fun other hother => List.idxOf_append_of_mem ((h.mem_iff other).mp hother)
    rw [List.pairwise_append]
    refine ⟨h.ordered.imp_of_mem fun hfirst hsecond hlt => ?_, List.pairwise_singleton _ _, ?_⟩
    · rwa [hplace _ hfirst, hplace _ hsecond]
    · intro other hother last hlast
      obtain rfl := List.mem_singleton.mp hlast
      rw [hplace other hother, List.idxOf_append_of_notMem hnew]
      have hlt := List.idxOf_lt_length_of_mem ((h.mem_iff other).mp hother)
      omega

theorem addNew (h : FirstOccurrences known done) (names : List String) :
    FirstOccurrences (Trace.addNew known names) (done ++ names) := by
  -- by induction on the names to come; each one is known or new when its turn comes
  induction names generalizing known done with
  | nil => rwa [List.append_nil]
  | cons name rest ih =>
    rw [Trace.addNew, List.append_cons done name rest]
    split
    · next hname => exact ih (h.append_known (List.contains_iff_mem.mp hname))
    · next hname => exact ih (h.append_new fun hmem => hname (List.contains_iff_mem.mpr hmem))

end FirstOccurrences

theorem Trace.matchedRules_firstOccurrences (trace : Trace) :
    FirstOccurrences trace.matchedRules (trace.passes.flatMap PassTrace.matched) := by
  have hnone : FirstOccurrences [] [] := ⟨.nil, by simp, .nil⟩
  exact hnone.addNew _

/-! ### What a record says -/

/-- What the record of a run over some rules says. -/
structure Trace.WellKept (rules : List Rule) (trace : Trace) : Prop where
  numbered : trace.passes.map PassTrace.pass = List.range' 1 trace.iterations
  /-- In every pass but the last some rule matches. -/
  matched_ne_nil : ∀ pass ∈ trace.passes.dropLast, pass.matched ≠ []
  matched_sublist : ∀ pass ∈ trace.passes, pass.matched.Sublist (rules.map Rule.name)
  retired_ordered : trace.retired.Pairwise fun first second => first.pass ≤ second.pass
  retired_length : trace.retired.length ≤ rules.length
  /-- Rules retire in passes in which they match. -/
  retired_matched : ∀ retired ∈ trace.retired, ∃ pass ∈ trace.passes,
    pass.pass = retired.pass ∧ retired.rule ∈ pass.matched
  /-- If names tell the rules apart, a rule that has retired matches no more. -/
  retired_gone : (rules.map Rule.name).Nodup → ∀ retired ∈ trace.retired, ∀ pass ∈ trace.passes,
    retired.pass < pass.pass → retired.rule ∉ pass.matched

namespace Run

variable {ι : Type}

/-! ### Records as numbered logs -/

theorem Log.passes_trace (name : ι → String) (log : Log ι) :
    (log.trace name).passes =
      (log.zipIdx 1).map fun entry => ⟨entry.2, entry.1.matched.map name⟩ := by
  induction log using List.reverseRecOn with
  | nil => rfl
  | append_singleton log pass ih =>
    rw [Log.trace_append, Trace.record, ih, Log.iterations_trace, List.zipIdx_append,
      List.map_append, Nat.add_comm 1]
    rfl

theorem Log.retired_trace (name : ι → String) (log : Log ι) :
    (log.trace name).retired =
      (log.zipIdx 1).flatMap fun entry =>
        entry.1.retired.map fun place => ⟨name place, entry.2⟩ := by
  induction log using List.reverseRecOn with
  | nil => rfl
  | append_singleton log pass ih =>
    rw [Log.trace_append, Trace.record, ih, Log.iterations_trace, List.zipIdx_append,
      List.flatMap_append, Nat.add_comm 1, List.map_map]
    simp [List.zipIdx_cons, Function.comp_def]

/-! ### Passes over the rules that are left -/

variable [DecidableEq ι]

/-- The places of a list whose rules have not retired in the passes of a log. -/
def Log.remaining (places : List ι) (log : Log ι) : List ι :=
  places.filter fun place => place ∉ log.flatMap PassLog.retired

theorem Log.remaining_append (places : List ι) (log : Log ι) (pass : PassLog ι) :
    Log.remaining places (log ++ [pass]) =
      (Log.remaining places log).filter fun place => place ∉ pass.retired := by
  rw [Log.remaining, Log.remaining, List.filter_filter]
  refine List.filter_congr fun place _ => ?_
  simp only [List.flatMap_append, List.flatMap_singleton, List.mem_append, not_or, Bool.decide_and,
    Bool.and_comm]

/-- In every pass of the log, the rules that match are among those that the passes before left. -/
def Log.Narrows (places : List ι) (log : Log ι) : Prop :=
  ∀ (number : Nat) (pass : PassLog ι), log[number]? = some pass →
    pass.matched.Sublist (Log.remaining places (log.take number))

theorem Log.Narrows.append {places : List ι} {log : Log ι} {pass : PassLog ι}
    (h : Log.Narrows places log) (hpass : pass.matched.Sublist (Log.remaining places log)) :
    Log.Narrows places (log ++ [pass]) := by
  intro number other hother
  obtain hlt | hle := Nat.lt_or_ge number log.length
  · rw [List.getElem?_append_left hlt] at hother
    rw [List.take_append_of_le_length (Nat.le_of_lt hlt)]
    exact h number other hother
  · rw [List.getElem?_append_right hle, List.getElem?_singleton] at hother
    split at hother
    · next hlast =>
      cases hother
      obtain rfl : number = log.length := by omega
      rwa [List.take_left]
    · cases hother

/-- What holds of the state of a run over the rules of these places between two passes. -/
structure LogState.Sound (places : List ι) (state : LogState ι) : Prop where
  active_eq : state.active = Log.remaining places state.log
  narrows : Log.Narrows places state.log
  matched_ne_nil : ∀ pass ∈ state.log, pass.matched ≠ []

variable {rule : ι → Rule} {places : List ι} {hnodup : places.Nodup} {limit : Option Nat}
variable {before patch : Object} {state later : LogState ι} {pass : PassLog ι}

theorem LogState.Sound.start (before patch : Object) (hnodup : places.Nodup) :
    (LogState.start before patch hnodup).Sound places where
  active_eq := by simp [LogState.start, Log.remaining]
  narrows := fun _ _ h => by cases h
  matched_ne_nil := by simp [LogState.start]

/-- The rules that match in a pass are left by the passes before. -/
theorem LogState.Sound.matched_sublist (h : state.Sound places)
    (hpass : (loggedPass rule before state.candidate state.active).Ends (.ok pass)) :
    pass.matched.Sublist (Log.remaining places state.log) :=
  h.active_eq ▸ (sublist_of_loggedPass hpass).1

/-- A pass after which the run goes on keeps its state sound. -/
theorem LogState.Sound.next (h : state.Sound places)
    (hround : (loggedRound rule before limit state).Ends (.ok (.inl later))) :
    later.Sound places := by
  obtain ⟨pass, hpass, hstable, rfl⟩ := loggedRound_inl hround
  have hnarrows := h.narrows.append (h.matched_sublist hpass)
  refine { active_eq := ?_, narrows := hnarrows, matched_ne_nil := ?_ }
  · rw [Log.remaining_append, ← h.active_eq]
  · rw [List.forall_mem_append]
    refine ⟨h.matched_ne_nil, fun last hlast hnone => ?_⟩
    -- a pass in which no rule matches is stable
    obtain rfl := List.mem_singleton.mp hlast
    simp [PassLog.isStable, hnone] at hstable

/-! ### What a log tells -/

/-- A log of a run over some rules, of which the record of the run tells the names. -/
structure Log.Tells {rules : List Rule} (log : Log (Fin rules.length)) (trace : Trace) : Prop where
  iterations : trace.iterations = log.length
  passes : trace.passes = (log.zipIdx 1).map fun entry =>
    ⟨entry.2, entry.1.matched.map fun place => (rules.get place).name⟩
  retired : trace.retired = (log.zipIdx 1).flatMap fun entry =>
    entry.1.retired.map fun place => ⟨(rules.get place).name, entry.2⟩
  /-- Every pass goes over the rules that the passes before left, in their order. -/
  narrows : Log.Narrows (List.finRange rules.length) log
  /-- In every pass but the last some rule matches. -/
  matched_ne_nil : ∀ pass ∈ log.dropLast, pass.matched ≠ []
  /-- The rules that retire in a pass are among those that match in it, in their order. -/
  retired_sublist : ∀ pass ∈ log, pass.retired.Sublist pass.matched
  /-- No rule retires twice. -/
  retired_nodup : (log.flatMap PassLog.retired).Nodup

/-- The log of a run tells its record. -/
theorem LogsInPass.tells {rules : List Rule} {number : Nat} {object : Object}
    {log : Log (Fin rules.length)}
    (h : LogsInPass rules.get (List.nodup_finRange _) limit before patch number
      (.ok (object, log))) :
    log.Tells (log.trace fun place => (rules.get place).name) := by
  obtain ⟨active, horderly⟩ := h.orderly
  obtain ⟨_, state, -, hreach, hlast⟩ := h.last
  have hsound : state.Sound (List.finRange rules.length) :=
    hreach.keeps (fun _ _ hround hsound => hsound.next hround) (.start before patch _)
  obtain ⟨pass, hpass, hresult⟩ := loggedRound_inr hlast
  cases hresult
  exact {
    iterations := Log.iterations_trace _ _
    passes := Log.passes_trace _ _
    retired := Log.retired_trace _ _
    narrows := hsound.narrows.append (hsound.matched_sublist hpass)
    matched_ne_nil := by
      rw [List.dropLast_concat]
      exact hsound.matched_ne_nil
    retired_sublist := horderly.retired_sublist
    retired_nodup := horderly.retired_nodup }

theorem map_name_get (rules : List Rule) :
    (List.finRange rules.length).map (fun place => (rules.get place).name) =
      rules.map Rule.name := by
  conv_rhs => rw [← List.map_get_finRange rules, List.map_map]
  rfl

namespace Log.Tells

variable {rules : List Rule} {log : Log (Fin rules.length)} {trace : Trace}

theorem mem_passes_iff (h : log.Tells trace) {entry : PassTrace} :
    entry ∈ trace.passes ↔ ∃ (number : Nat) (pass : PassLog (Fin rules.length)),
      log[number]? = some pass ∧
        entry = ⟨number + 1, pass.matched.map fun place => (rules.get place).name⟩ := by
  rw [h.passes, List.mem_map]
  constructor
  · rintro ⟨⟨pass, number⟩, hentry, rfl⟩
    obtain ⟨hle, hpass⟩ := List.mem_zipIdx_iff_le_and_getElem?_sub.mp hentry
    exact ⟨number - 1, pass, hpass, by rw [Nat.sub_add_cancel hle]⟩
  · rintro ⟨number, pass, hpass, rfl⟩
    exact ⟨(pass, number + 1),
      List.mem_zipIdx_iff_le_and_getElem?_sub.mpr ⟨Nat.le_add_left 1 number, hpass⟩, rfl⟩

theorem mem_retired_iff (h : log.Tells trace) {entry : RetiredRule} :
    entry ∈ trace.retired ↔ ∃ (number : Nat) (pass : PassLog (Fin rules.length)),
      log[number]? = some pass ∧ ∃ place ∈ pass.retired,
        entry = ⟨(rules.get place).name, number + 1⟩ := by
  rw [h.retired, List.mem_flatMap]
  constructor
  · rintro ⟨⟨pass, number⟩, hpass, hentry⟩
    obtain ⟨hle, hpass⟩ := List.mem_zipIdx_iff_le_and_getElem?_sub.mp hpass
    obtain ⟨place, hplace, rfl⟩ := List.mem_map.mp hentry
    exact ⟨number - 1, pass, hpass, place, hplace, by rw [Nat.sub_add_cancel hle]⟩
  · rintro ⟨number, pass, hpass, place, hplace, rfl⟩
    exact ⟨(pass, number + 1),
      List.mem_zipIdx_iff_le_and_getElem?_sub.mpr ⟨Nat.le_add_left 1 number, hpass⟩,
      List.mem_map.mpr ⟨place, hplace, rfl⟩⟩

theorem map_rule_retired (h : log.Tells trace) :
    trace.retired.map RetiredRule.rule =
      (log.flatMap PassLog.retired).map fun place => (rules.get place).name := by
  conv_rhs => rw [← List.zipIdx_map_fst 1 log, List.flatMap_map, List.map_flatMap]
  rw [h.retired, List.map_flatMap]
  simp only [List.map_map, Function.comp_def]

/-- A rule that has retired is not left for the passes to come. -/
theorem notMem_matched (h : log.Tells trace) {earlier later : Nat}
    {pass next : PassLog (Fin rules.length)} (hpass : log[earlier]? = some pass)
    (hnext : log[later]? = some next) (hlt : earlier < later) {place : Fin rules.length}
    (hplace : place ∈ pass.retired) : place ∉ next.matched := by
  intro hmatched
  have hleft := (h.narrows later next hnext).subset hmatched
  rw [Log.remaining, List.mem_filter, decide_eq_true_iff] at hleft
  have hbefore : pass ∈ log.take later := by
    rw [← List.getElem?_take_of_lt hlt] at hpass
    exact List.mem_of_getElem? hpass
  exact hleft.2 (List.mem_flatMap.mpr ⟨pass, hbefore, hplace⟩)

/-- What a log tells is kept by the record. -/
theorem wellKept (h : log.Tells trace) : trace.WellKept rules where
  numbered := by
    rw [h.passes, List.map_map, h.iterations]
    exact List.zipIdx_map_snd 1 log
  matched_ne_nil := by
    obtain hnone | ⟨earlier, last, hlog⟩ := log.eq_nil_or_concat'
    · simp [h.passes, hnone]
    · have hmatched := h.matched_ne_nil
      rw [hlog, List.dropLast_concat] at hmatched
      rw [h.passes, hlog, List.zipIdx_append, List.map_append, List.zipIdx_cons, List.zipIdx_nil,
        List.map_singleton, List.dropLast_concat, List.forall_mem_map]
      intro entry hentry
      rw [ne_eq, List.map_eq_nil_iff]
      exact hmatched entry.1 (List.fst_mem_of_mem_zipIdx hentry)
  matched_sublist := by
    intro entry hentry
    obtain ⟨number, pass, hpass, rfl⟩ := h.mem_passes_iff.mp hentry
    have hplaces : pass.matched.Sublist (List.finRange rules.length) :=
      (h.narrows number pass hpass).trans List.filter_sublist
    rw [← map_name_get rules]
    exact hplaces.map _
  retired_ordered := by
    rw [h.retired, List.pairwise_flatMap]
    have hnumbers : (log.zipIdx 1).Pairwise fun first second => first.2 < second.2 := by
      rw [← List.pairwise_map, List.zipIdx_map_snd]
      exact List.pairwise_lt_range'
    refine ⟨fun entry _ => ?_, hnumbers.imp fun hlt => ?_⟩
    · exact List.pairwise_map.mpr (List.pairwise_of_forall fun _ _ => Nat.le_refl _)
    · rw [List.forall_mem_map]
      intro first _
      rw [List.forall_mem_map]
      exact fun _ _ => Nat.le_of_lt hlt
  retired_length := by
    have hlength := congrArg List.length h.map_rule_retired
    rw [List.length_map, List.length_map] at hlength
    have hplaces := List.Nodup.subperm h.retired_nodup fun place _ => List.mem_finRange place
    rw [hlength]
    exact hplaces.length_le.trans_eq List.length_finRange
  retired_matched := by
    intro entry hentry
    obtain ⟨number, pass, hpass, place, hplace, rfl⟩ := h.mem_retired_iff.mp hentry
    have hmatched := (h.retired_sublist pass (List.mem_of_getElem? hpass)).subset hplace
    exact ⟨_, h.mem_passes_iff.mpr ⟨number, pass, hpass, rfl⟩, rfl, List.mem_map_of_mem hmatched⟩
  retired_gone := by
    intro hnames retired hretired entry hentry hlt hmatched
    obtain ⟨earlier, pass, hpass, place, hplace, rfl⟩ := h.mem_retired_iff.mp hretired
    obtain ⟨later, next, hnext, rfl⟩ := h.mem_passes_iff.mp hentry
    obtain ⟨other, hother, hname⟩ := List.mem_map.mp hmatched
    -- different places have different names
    rw [← map_name_get rules] at hnames
    obtain rfl : other = place :=
      List.inj_on_of_nodup_map hnames (List.mem_finRange other) (List.mem_finRange place) hname
    exact h.notMem_matched hpass hnext (Nat.lt_of_succ_lt_succ hlt) hplace hother

end Log.Tells

/-- **What is on record.**  A run that ends with an object and a record has a log, place by place,
of which the record tells the names: each pass goes over the rules that those before left, and no
rule retires twice.  So the record is well kept, and the rules it lists as matched are those of its
passes, in the order of their first match. -/
theorem record_of_run {rules : List Rule} {limit : Option Nat} {before patch object : Object}
    {trace : Trace}
    (h : (stabilizeTraced rules limit before patch).Ends (.ok (object, trace))) :
    (∃ log : Log (Fin rules.length),
      LogsInPass rules.get (List.nodup_finRange _) limit before patch trace.iterations
        (.ok (object, log)) ∧ log.Tells trace) ∧
    trace.WellKept rules ∧
    FirstOccurrences trace.matchedRules (trace.passes.flatMap PassTrace.matched) := by
  obtain ⟨number, hend⟩ := stabilizeTraced_ends_iff.mp h
  obtain ⟨log, hlog, rfl⟩ := exists_log_of_endsInPass hend
  obtain rfl := iterations_of_endsInPass hend
  exact ⟨⟨log, hlog, hlog.tells⟩, hlog.tells.wellKept, Trace.matchedRules_firstOccurrences _⟩

/-- A rule that always matches and changes nothing. -/
def keep : Rule where
  name := "keep"
  matcher := .constant true
  transform := pure

/-- The rule that changes nothing retires in the first pass, in which the other one turns a field
on; that one retires in the second. -/
theorem record_of_run_keep :
    let rules := [keep, switch true]
    let trace : Trace := ⟨2, [⟨1, ["keep", "on"]⟩, ⟨2, ["on"]⟩], [⟨"keep", 1⟩, ⟨"on", 2⟩]⟩
    (stabilizeTraced rules none .nil .nil).Ends
        (.ok (FieldsAfter.nil.insert "on" (.bool true), trace)) ∧
      (∃ log : Log (Fin 2), @Log.Tells rules log trace) ∧ trace.WellKept rules ∧
      FirstOccurrences trace.matchedRules ["keep", "on", "on"] := by
  intro rules trace
  have hrun : (stabilizeTraced rules none .nil .nil).Ends
      (.ok (FieldsAfter.nil.insert "on" (.bool true), trace)) := ⟨2, rfl⟩
  obtain ⟨⟨log, -, htells⟩, hkept, hmatched⟩ := record_of_run hrun
  exact ⟨hrun, ⟨log, htells⟩, hkept, hmatched⟩

end Run

end TransitionRules
