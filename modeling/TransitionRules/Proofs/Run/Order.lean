/-
TransitionRules/Proofs/Run/Order.lean

Rules that can be given in any order.  Rules are independent if their matchers never fail and their
transforms are chains of actions, those of different rules naming different fields (`Independent`).

Within a pass such rules do not see each other.  The fields that a chain names are, when its turn
comes, still those of the candidate, so whether it changes anything can be read off the candidate,
and what the pass makes is the candidate with all the chains applied, in whatever order
(`loggedPass_eq_map_filterM`).  A pass over the same rules in another order therefore matches and
retires the same rules and has the same output (`loggedPass_perm`), and two runs keep in step.

Main result: `stabilize_perm`.
-/
import TransitionRules.Proofs.Run.Chains

namespace TransitionRules.Run

open Budgeted (Agrees RoundsAgree)
open Reference (idle)

variable {ι : Type}

/-- Rules whose matchers never fail and whose transforms are chains of actions, those of different
rules naming different fields. -/
structure Independent (rule : ι → Rule) (chain : ι → List Action) : Prop where
  matchers : ∀ place context e, ¬ ((rule place).matcher.holds context).Ends (.error e)
  transforms : ∀ place object,
    (rule place).transform object = pure (Action.applyAll (chain place) object)
  disjoint : ∀ place place', place ≠ place' →
    (Action.chainFields (chain place)).Disjoint (Action.chainFields (chain place'))

variable {rule : ι → Rule} {chain : ι → List Action} {before candidate : Object}

/-! ### One pass -/

/-- Whether a chain leaves an object as it is. -/
def isNoop (chain : ι → List Action) (object : Object) (place : ι) : Bool :=
  (Action.applyAll (chain place) object).sameValue object

/-- Of independent rules those retire whose chains leave the candidate as it is. -/
theorem idle_chainTurns_eq_filter (h : Independent rule chain) {places : List ι}
    (hnodup : places.Nodup) {input : Object}
    (hinput : ∀ place ∈ places, ∀ key ∈ Action.chainFields (chain place),
      input.get? key = candidate.get? key) :
    idle (chainTurns chain input places) = places.filter (isNoop chain candidate) := by
  induction places generalizing input with
  | nil => rfl
  | cons place rest ih =>
    obtain ⟨hplace, hrest⟩ := List.nodup_cons.mp hnodup
    rw [List.forall_mem_cons] at hinput
    -- the chain leaves the fields of the other rules alone
    have hlater : ∀ other ∈ rest, ∀ key ∈ Action.chainFields (chain other),
        (Action.applyAll (chain place) input).get? key = candidate.get? key := by
      intro other hother key hkey
      have hne : place ≠ other := by
        rintro rfl
        exact hplace hother
      rw [Action.get?_applyAll_of_notMem fun hmem => h.disjoint _ _ hne hmem hkey]
      exact hinput.2 other hother key hkey
    have hnoop : (Action.applyAll (chain place) input).sameValue input =
        isNoop chain candidate place := Action.sameValue_applyAll_congr hinput.1
    rw [idle_chainTurns_cons, hnoop, ih hrest hlater, List.filter_cons]

/-- A pass over independent rules, read off the candidate. -/
theorem loggedPass_eq_map_filterM (h : Independent rule chain) {places : List ι}
    (hnodup : places.Nodup) :
    loggedPass rule before candidate places =
      (fun matched => ⟨matched, applyChains chain candidate matched,
        matched.filter (isNoop chain candidate)⟩) <$>
        places.filterM fun place => (rule place).matcher.holds ⟨before, candidate⟩ := by
  rw [loggedPass_of_chains h.transforms, ← bind_pure_comp, ← bind_pure_comp]
  -- no rule has two turns in a pass, which would name its fields twice
  refine Budgeted.bind_congr_of_ends fun matched hmatched => ?_
  have hmatched : matched.Nodup := hnodup.sublist (Budgeted.sublist_of_filterM hmatched)
  rw [idle_chainTurns_eq_filter h hmatched fun _ _ key _ => rfl]

/-- The chains of independent rules can be applied in any order. -/
theorem applyChains_perm (h : Independent rule chain) (object : Object) {places places' : List ι}
    (hperm : places.Perm places') :
    applyChains chain object places = applyChains chain object places' := by
  -- chains of different rules commute, and each chain commutes with itself
  refine hperm.foldl_eq' (fun place _ place' _ object => ?_) object
  by_cases hplace : place = place'
  · rw [hplace]
  · exact Action.applyAll_comm (h.disjoint _ _ hplace) object

/-- Two passes that match the same rules, retire the same rules and make the same object. -/
structure SamePass (pass pass' : PassLog ι) : Prop where
  matched : pass.matched.Perm pass'.matched
  output : pass.output = pass'.output
  retired : pass.retired.Perm pass'.retired

theorem SamePass.isStable_eq {pass pass' : PassLog ι} (h : SamePass pass pass')
    (candidate : Object) : pass.isStable candidate = pass'.isStable candidate := by
  rw [PassLog.isStable, PassLog.isStable, h.output, h.matched.isEmpty_eq]

/-- A pass over independent rules in another order is the same pass. -/
theorem loggedPass_perm (h : Independent rule chain) {places places' : List ι}
    (hnodup : places.Nodup) (hperm : places.Perm places') :
    Agrees SamePass (loggedPass rule before candidate places)
      (loggedPass rule before candidate places') := by
  rw [loggedPass_eq_map_filterM h hnodup,
    loggedPass_eq_map_filterM h (hperm.nodup_iff.mp hnodup), ← bind_pure_comp, ← bind_pure_comp]
  have hmatched := Budgeted.filterM_perm
    (fun place e => h.matchers place ⟨before, candidate⟩ e) hperm
  refine hmatched.bind fun matched matched' hmatched => .pure ?_
  exact ⟨hmatched, applyChains_perm h candidate hmatched, hmatched.filter _⟩

/-! ### Whole runs -/

/-- States of runs over the same rules in different orders. -/
structure StatePermuted (state state' : LogState ι) : Prop where
  candidate : state.candidate = state'.candidate
  active : state.active.Perm state'.active
  log : List.Forall₂ SamePass state.log state'.log

/-- Results of runs over the same rules in different orders. -/
def ResultPermuted (result result' : Object × Log ι) : Prop :=
  result.1 = result'.1 ∧ List.Forall₂ SamePass result.2 result'.2

variable {places places' : List ι}

theorem start_permuted (hnodup : places.Nodup) (hnodup' : places'.Nodup)
    (hperm : places.Perm places') (before patch : Object) :
    StatePermuted (.start before patch hnodup) (.start before patch hnodup') :=
  ⟨rfl, hperm, .nil⟩

variable [DecidableEq ι]

theorem loggedRound_perm (h : Independent rule chain) (before : Object) (limit : Option Nat) :
    RoundsAgree StatePermuted ResultPermuted (loggedRound rule before limit)
      (loggedRound rule before limit) := by
  rintro ⟨candidate, active, nodup, log⟩ ⟨_, active', nodup', log'⟩ ⟨hcandidate, hactive, hlog⟩
  dsimp only at hcandidate hactive hlog
  subst hcandidate
  refine (loggedPass_perm h nodup hactive).bind fun pass pass' hpass => ?_
  have hlogs : List.Forall₂ SamePass (log ++ [pass]) (log' ++ [pass']) :=
    List.rel_append hlog (.cons hpass .nil)
  dsimp only
  rw [hpass.isStable_eq candidate, hlogs.length_eq]
  split
  · exact .pure (.inr ⟨rfl, hlogs⟩)
  · split
    · exact .fail _
    · refine .pure (.inl ⟨hpass.output, ?_, hlogs⟩)
      have hgone : ∀ place, (place ∉ pass.retired) = (place ∉ pass'.retired) :=
        fun place => by rw [hpass.retired.mem_iff]
      simp only [hgone]
      exact hactive.filter _

/-- Each pass of one run is one of the other, in the same place: the same rules match, the same rules
retire, and the output is the same. -/
def KeepsInStep (rule : ι → Rule) (hnodup : places.Nodup) (hnodup' : places'.Nodup)
    (limit : Option Nat) (before patch : Object) : Prop :=
  ∀ count pass, MakesPass rule hnodup limit before patch count pass →
    ∃ pass', MakesPass rule hnodup' limit before patch count pass' ∧ SamePass pass pass'

theorem keepsInStep_of_perm (h : Independent rule chain) (hnodup : places.Nodup)
    (hnodup' : places'.Nodup) (hperm : places.Perm places') (limit : Option Nat)
    (before patch : Object) : KeepsInStep rule hnodup hnodup' limit before patch := by
  rintro count pass ⟨state, hreach, hpass⟩
  have hrounds := loggedRound_perm h before limit
  obtain ⟨state', hreach', hstate⟩ :=
    hrounds.reaches (start_permuted hnodup hnodup' hperm before patch) hreach
  obtain ⟨_, hpass', halike⟩ := (loggedPass_perm h state.nodup hstate.active).forward _ hpass
  cases halike with
  | @ok _ pass' hsame =>
    rw [hstate.candidate] at hpass'
    exact ⟨pass', ⟨state', hreach', hpass'⟩, hsame⟩

/-- **Independent rules can be given in any order.**  Runs over the same rules in two orders end in
the same pass, with the same object or the same error, or go on for ever together; in every pass of
them the same rules match and the same rules retire; and their records are logs in names that differ
in the order of the rules within a pass alone. -/
theorem stabilize_perm (rules : List Rule) (chain : Fin rules.length → List Action)
    (hrules : Independent rules.get chain) {places : List (Fin rules.length)}
    (hplaces : places.Perm (List.finRange rules.length)) (limit : Option Nat)
    (before patch : Object) :
    let given := List.nodup_finRange rules.length
    let permuted := hplaces.nodup_iff.mpr given
    (∀ number outcome,
      PlainEndsInPass (places.map rules.get) limit before patch number outcome ↔
        PlainEndsInPass rules limit before patch number outcome) ∧
    ((stabilize (places.map rules.get) limit before patch).Diverges ↔
      (stabilize rules limit before patch).Diverges) ∧
    KeepsInStep rules.get given permuted limit before patch ∧
    KeepsInStep rules.get permuted given limit before patch ∧
    ∀ number object trace,
      EndsInPass rules limit before patch number (.ok (object, trace)) →
      ∃ log log', LogsInPass rules.get given limit before patch number (.ok (object, log)) ∧
        LogsInPass rules.get permuted limit before patch number (.ok (object, log')) ∧
        trace = log.trace (fun place => (rules.get place).name) ∧
        EndsInPass (places.map rules.get) limit before patch number
          (.ok (object, log'.trace fun place => (rules.get place).name)) ∧
        List.Forall₂ SamePass log log' := by
  intro given permuted
  have hrounds := loggedRound_perm hrules before limit
  have hstart := start_permuted given permuted hplaces.symm before patch
  have hplain : ∀ number outcome,
      PlainEndsInPass (places.map rules.get) limit before patch number outcome ↔
        PlainEndsInPass rules limit before patch number outcome := by
    intro number outcome
    rw [plainEndsInPass_iff_logged rules.get permuted,
      plainEndsInPass_iff_logged_get limit before patch number rules]
    exact (hrounds.endsIn_iff hstart (fun _ _ h => h.1) number outcome).symm
  refine ⟨hplain, stabilize_diverges_iff hplain,
    keepsInStep_of_perm hrules given permuted hplaces.symm limit before patch,
    keepsInStep_of_perm hrules permuted given hplaces limit before patch, ?_⟩
  intro number object trace hend
  obtain ⟨log, hlog, rfl⟩ := exists_log_of_endsInPass hend
  obtain ⟨_, hlog', halike⟩ := hrounds.endsIn hstart hlog
  cases halike with
  | @ok _ result' hresult =>
    obtain ⟨settled, log'⟩ := result'
    obtain ⟨hsettled, hsame⟩ := hresult
    obtain rfl : object = settled := hsettled
    exact ⟨log, log', hlog, hlog', rfl, LogsInPass.endsInPass hlog', hsame⟩

/-- A rule that always applies a chain of actions. -/
def always (name : String) (chain : List Action) : Rule where
  name := name
  matcher := .constant true
  transform object := pure (Action.applyAll chain object)

/-- A chain that sets a field. -/
def mark : List Action := [.set "seen" (.bool true)]

/-- A chain that removes another field. -/
def clear : List Action := [.remove "draft"]

/-- Setting the one field and removing the other are independent. -/
theorem independent_mark_clear :
    Independent [always "mark" mark, always "clear" clear].get [mark, clear].get where
  matchers place context e h := by
    match place with
    | 0 | 1 => cases Budgeted.ends_pure_iff.mp h
  transforms place object := by
    match place with
    | 0 | 1 => rfl
  disjoint place place' hne := by
    match place, place' with
    | 0, 0 | 1, 1 => exact absurd rfl hne
    | 0, 1 | 1, 0 => exact List.disjoint_singleton.mpr (by decide)

/-- In either order the two settle in the second pass, on the marked object. -/
theorem stabilize_perm_mark_clear :
    Independent [always "mark" mark, always "clear" clear].get [mark, clear].get ∧
      PlainEndsInPass [always "mark" mark, always "clear" clear] none .nil .nil 2
        (.ok (FieldsAfter.nil.insert "seen" (.bool true))) ∧
      PlainEndsInPass [always "clear" clear, always "mark" mark] none .nil .nil 2
        (.ok (FieldsAfter.nil.insert "seen" (.bool true))) := by
  have hperm : [1, 0].Perm (List.finRange 2) := by decide
  have hgiven : PlainEndsInPass [always "mark" mark, always "clear" clear] none .nil .nil 2
      (.ok (FieldsAfter.nil.insert "seen" (.bool true))) :=
    .next ⟨0, rfl⟩ (.answer ⟨0, rfl⟩)
  have hboth := stabilize_perm [always "mark" mark, always "clear" clear] [mark, clear].get
    independent_mark_clear hperm none .nil .nil
  exact ⟨independent_mark_clear, hgiven, (hboth.1 _ _).mpr hgiven⟩

end TransitionRules.Run
