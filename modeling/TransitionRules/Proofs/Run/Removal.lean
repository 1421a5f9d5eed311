/-
TransitionRules/Proofs/Run/Removal.lean

Rules that only remove fields.  Their matchers may turn on and off in any way, and they may enable
one another in cascades of any length.  But a pass that is not the last one leaves a candidate that
does not equal its own, and with rules that only remove, that is a candidate with fewer fields.  So
the number of fields bounds the number of passes, and no limit is needed.

That the new candidate is not the old one follows from the test that ends a run, because every object
equals itself by value (`Object.sameValue_refl`).  That different objects may be equal by value too
does no harm here: it can only end a run sooner.

Main result: `stabilize_removals`.
-/
import TransitionRules.Proofs.Run.Chains

namespace TransitionRules

namespace Object

/-! ### Parts of objects -/

/-- Each field of the one object is in the other, with the same value. -/
def IsPartOf (part whole : Object) : Prop :=
  ∀ name value, part.get? name = some value → whole.get? name = some value

variable {part middle whole : Object}

theorem IsPartOf.refl (object : Object) : object.IsPartOf object := fun _ _ h => h

theorem IsPartOf.trans (h : part.IsPartOf middle) (h' : middle.IsPartOf whole) :
    part.IsPartOf whole := fun name value hvalue => h' name value (h name value hvalue)

theorem IsPartOf.names_subset (h : part.IsPartOf whole) : part.names ⊆ whole.names := by
  intro name hname
  rw [FieldsAfter.mem_names_iff] at hname ⊢
  obtain ⟨value, hvalue⟩ := Option.ne_none_iff_exists'.mp hname
  rw [h name value hvalue]
  exact Option.some_ne_none value

/-- A part with as many fields as the whole is the whole. -/
theorem IsPartOf.eq_of_size_le (h : part.IsPartOf whole) (hsize : whole.size ≤ part.size) :
    part = whole := by
  rw [← FieldsAfter.length_names, ← FieldsAfter.length_names] at hsize
  have hnames : part.names.Perm whole.names :=
    ((FieldsAfter.nodup_names part).subperm h.names_subset).perm_of_length_le hsize
  apply FieldsAfter.ext_get?
  intro name
  rcases hpart : part.get? name with - | value
  · -- a name that is missing in the part is missing in the whole
    have hmissing : name ∉ part.names := fun hname => FieldsAfter.mem_names_iff.mp hname hpart
    rw [hnames.mem_iff, FieldsAfter.mem_names_iff, not_not] at hmissing
    exact hmissing.symm
  · exact (h name value hpart).symm

/-- A part that is not the whole has fewer fields. -/
theorem IsPartOf.size_lt_of_ne (h : part.IsPartOf whole) (hne : part ≠ whole) :
    part.size < whole.size := by
  apply Nat.lt_of_not_le
  intro hsize
  exact hne (h.eq_of_size_le hsize)

theorem isPartOf_erase (field : String) (object : Object) :
    IsPartOf (FieldsAfter.erase field object) object := by
  intro name value hvalue
  rw [FieldsAfter.get?_erase] at hvalue
  split at hvalue
  · cases hvalue
  · exact hvalue

end Object

namespace Run

/-! ### Rules that only remove -/

/-- Removing fields, one after the other. -/
def removals (fields : List String) : List Action := fields.map .remove

theorem isPartOf_applyAll_removals (fields : List String) (object : Object) :
    Object.IsPartOf (Action.applyAll (removals fields) object) object := by
  induction fields generalizing object with
  | nil => exact .refl object
  | cons field rest ih => exact (ih _).trans (Object.isPartOf_erase field object)

/-- A rule whose matcher always answers and whose transform only removes fields. -/
structure RemovesOnly (rule : Rule) : Prop where
  answers : ∀ context, ∃ holds, (rule.matcher.holds context).Ends (.ok holds)
  removes : ∃ fields, ∀ object,
    rule.transform object = pure (Action.applyAll (removals fields) object)

variable {ι : Type} {rule : ι → Rule}

/-- The chains of some removals only remove. -/
theorem isPartOf_applyChains (fields : ι → List String) (object : Object) (places : List ι) :
    Object.IsPartOf (applyChains (fun place => removals (fields place)) object places) object := by
  induction places generalizing object with
  | nil => exact .refl object
  | cons place rest ih => exact (ih _).trans (isPartOf_applyAll_removals (fields place) object)

/-- A pass over such rules is a question to their matchers, all of which answer. -/
theorem loggedPass_removals (h : ∀ place, RemovesOnly (rule place)) (before candidate : Object)
    (places : List ι) :
    ∃ pass, (loggedPass rule before candidate places).Ends (.ok pass) ∧
      pass.output.IsPartOf candidate := by
  choose fields hfields using fun place => (h place).removes
  have hchains : PerformsChains rule fun place => removals (fields place) := hfields
  obtain ⟨matched, hmatched⟩ : ∃ matched, (places.filterM fun place =>
      (rule place).matcher.holds ⟨before, candidate⟩).Ends (.ok matched) :=
    ⟨_, Budgeted.filterM_ends_ok_iff.mpr ⟨fun place _ => (h place).answers _, rfl⟩⟩
  rw [loggedPass_of_chains hchains]
  refine ⟨_, Budgeted.ends_map_iff.mpr ⟨_, hmatched, rfl⟩, ?_⟩
  exact isPartOf_applyChains fields candidate matched

/-- A round over such rules ends.  If it is not the last one, it leaves a part of its candidate, with
fewer fields. -/
theorem loggedRound_removals [DecidableEq ι] (h : ∀ place, RemovesOnly (rule place))
    (before : Object) (state : LogState ι) :
    ∃ result, (loggedRound rule before none state).Ends (.ok result) ∧
      ∀ later, result = .inl later →
        later.candidate.IsPartOf state.candidate ∧ later.candidate.size < state.candidate.size := by
  obtain ⟨pass, hpass, hpart⟩ := loggedPass_removals h before state.candidate state.active
  have hround := loggedRound_of_pass none hpass
  by_cases hstable : pass.isStable state.candidate = true
  · rw [if_pos hstable] at hround
    exact ⟨_, hround, fun later hlater => nomatch hlater⟩
  · rw [if_neg hstable, limitReached, if_neg Bool.false_ne_true] at hround
    refine ⟨_, hround, fun later hlater => ?_⟩
    cases hlater
    have hchange : pass.output ≠ state.candidate := fun hsame =>
      hstable (PassLog.isStable_of_output_eq hsame)
    exact ⟨hpart, hpart.size_lt_of_ne hchange⟩

/-! ### The run -/

/-- **Runs that only remove fields end without a limit.**  Let the matchers of the rules always answer
and their transforms only remove fields.  Then a run without limit ends with a part of its first
candidate: each field that is left has the value that it had.  Each pass before the last one costs a
field or more, so there is at most one more pass than the first candidate has fields. -/
theorem stabilize_removals {rules : List Rule} (hrules : ∀ rule ∈ rules, RemovesOnly rule)
    (before patch : Object) :
    ∃ number settled, PlainEndsInPass rules none before patch number (.ok settled) ∧
      settled.IsPartOf (before.overlay patch) ∧
      number + settled.size ≤ (before.overlay patch).size + 1 := by
  have hplaces : ∀ place, RemovesOnly (rules.get place) := fun place =>
    hrules _ (List.get_mem rules place)
  have hround : ∀ state : LogState (Fin rules.length),
      state.candidate.IsPartOf (before.overlay patch) →
        ∃ result, (loggedRound rules.get before none state).Ends (.ok result) ∧
          ∀ later, result = .inl later → later.candidate.IsPartOf (before.overlay patch) ∧
            later.candidate.size < state.candidate.size := by
    intro state hstate
    obtain ⟨result, hresult, hless⟩ := loggedRound_removals hplaces before state
    refine ⟨result, hresult, fun later hlater => ?_⟩
    obtain ⟨hpart, hsize⟩ := hless later hlater
    exact ⟨hpart.trans hstate, hsize⟩
  -- the rounds up to the last one, and the last one
  let start : LogState (Fin rules.length) := .start before patch (List.nodup_finRange rules.length)
  have hstart : start.candidate.IsPartOf (before.overlay patch) := .refl _
  obtain ⟨earlier, final, result, hreach, hlast, hpart, hle⟩ :=
    Budgeted.reaches_last_of_measure
      (fun state : LogState (Fin rules.length) => state.candidate.size) hround hstart
  obtain ⟨pass, -, rfl⟩ := loggedRound_inr hlast
  refine ⟨earlier + 1, final.candidate, ?_, hpart, ?_⟩
  · have hend := hreach.endsIn_iff.mpr ⟨1, Nat.add_comm earlier 1, .answer hlast⟩
    exact (plainEndsInPass_iff_logged_get ..).mpr ⟨_, hend, rfl⟩
  · have hfields : earlier + final.candidate.size ≤ (before.overlay patch).size := hle
    omega

/-- Gives up a field if another one, which it depends on, has changed. -/
def dependent (field on : String) : Rule where
  name := field
  matcher := .predicate fun context =>
    pure (context.changed on && (context.next.get? field).isSome)
  transform object := pure (Action.applyAll (removals [field]) object)

theorem removesOnly_dependent (field on : String) : RemovesOnly (dependent field on) where
  answers _ := ⟨_, Budgeted.ends_pure_iff.mpr rfl⟩
  removes := ⟨[field], fun _ => rfl⟩

/-- A district in a city in a region. -/
def address : Object :=
  ((FieldsAfter.nil.insert "city" (.string "a")).insert "district" (.string "a")).insert "region"
    (.string "a")

/-- A change of region costs the city in the first pass, and that costs the district in the second. -/
theorem stabilize_removals_address :
    let rules := [dependent "district" "city", dependent "city" "region"]
    let patch : Object := FieldsAfter.nil.insert "region" (.string "b")
    (∀ rule ∈ rules, RemovesOnly rule) ∧ PlainEndsInPass rules none address patch 3 (.ok patch) ∧
      patch.IsPartOf (address.overlay patch) ∧
      3 + patch.size ≤ (address.overlay patch).size + 1 := by
  intro rules patch
  have hrules : ∀ rule ∈ rules, RemovesOnly rule := by
    simp [rules, removesOnly_dependent]
  have hrun : PlainEndsInPass rules none address patch 3 (.ok patch) :=
    .next ⟨0, rfl⟩ (.next ⟨0, rfl⟩ (.answer ⟨0, rfl⟩))
  obtain ⟨number, settled, hend, hpart, hle⟩ := stabilize_removals hrules address patch
  obtain ⟨rfl, hsettled⟩ := hend.unique hrun
  cases hsettled
  exact ⟨hrules, hrun, hpart, hle⟩

end Run

end TransitionRules
