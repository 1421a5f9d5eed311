/-
TransitionRules/Proofs/Run/Refinement.lean

Replacing rules by ones that do at least as much where a run uses them.  A run asks the matcher of a
rule about the candidates of the passes in which the rule is active (`Asks`), and it applies the
transform of a rule to the objects on which the rule has its turns (`Applies`).  What matchers and
transforms make of other objects is no matter for the run.  What the patched object has and the
transforms keep, every object has on which the run uses a rule (`Asks.keeps`, `Applies.keeps`).

So a run keeps its result when each rule is replaced by one that gives the same results there
(`RefinedAlong`).  The step lemma is `loggedRound_refines`: the rules of the same places match, take
their turns on the same objects and retire, so that the two runs go through the same states.

Main result: `stabilize_refines`.
-/
import TransitionRules.Proofs.Refines
import TransitionRules.Proofs.Run.Log

namespace TransitionRules.Run

open Budgeted (Reaches Refines)
open Reference (turns lastOutput)

variable {ι : Type} [DecidableEq ι]

/-! ### What a run asks of its rules -/

section Uses

variable (rule : ι → Rule) {places : List ι} (hnodup : places.Nodup) (limit : Option Nat)
variable (before patch : Object)

/-- In the run, the matcher of the rule in this place is asked about this object. -/
inductive Asks : ι → Object → Prop
  | inPass {count : Nat} {state : LogState ι} {place : ι}
      (hreach : Reaches (loggedRound rule before limit) (.start before patch hnodup) count state)
      (hactive : place ∈ state.active) : Asks place state.candidate

/-- In the run, the transform of the rule in this place is applied to this object. -/
inductive Applies : ι → Object → Prop
  | inTurn {count : Nat} {state : LogState ι} {matched : List ι}
      {results : List (Reference.Turn ι)} {turn : Reference.Turn ι}
      (hreach : Reaches (loggedRound rule before limit) (.start before patch hnodup) count state)
      (hmatched : (state.active.filterM fun place =>
        (rule place).matcher.holds ⟨before, state.candidate⟩).Ends (.ok matched))
      (hturns : (turns rule state.candidate matched).Ends (.ok results))
      (hturn : turn ∈ results) : Applies turn.rule turn.input

/-- Where the run uses the first rules, the second ones give every result that these give. -/
structure RefinedAlong (rule' : ι → Rule) : Prop where
  holds : ∀ place next, Asks rule hnodup limit before patch place next →
    Refines Eq ((rule place).matcher.holds ⟨before, next⟩) ((rule' place).matcher.holds ⟨before, next⟩)
  transform : ∀ place input, Applies rule hnodup limit before patch place input →
    Refines Eq ((rule place).transform input) ((rule' place).transform input)

end Uses

/-! ### Invariants -/

section Invariants

variable {rule : ι → Rule} {places : List ι} {hnodup : places.Nodup} {limit : Option Nat}
variable {before patch : Object} {P : Object → Prop}

omit [DecidableEq ι] in
/-- What the first input has and the transforms keep, every input of a turn has, and so has what the
turns make of it. -/
theorem turns_keep (hrule : ∀ place object, P object → ((rule place).transform object).Gives P)
    {input : Object} {matched : List ι} {results : List (Reference.Turn ι)} (hinput : P input)
    (h : (turns rule input matched).Ends (.ok results)) :
    (∀ turn ∈ results, P turn.input) ∧ P (lastOutput input results) := by
  induction matched generalizing input results with
  | nil =>
    cases Budgeted.ends_pure_iff.mp h
    exact ⟨List.forall_mem_nil _, hinput⟩
  | cons place rest ih =>
    obtain ⟨output, houtput, h⟩ := Budgeted.ends_bind_ok_iff.mp h
    obtain ⟨later, hlater, h⟩ := Budgeted.ends_bind_ok_iff.mp h
    cases Budgeted.ends_pure_iff.mp h
    obtain ⟨hinputs, hlast⟩ := ih (hrule place input hinput output houtput) hlater
    rw [Reference.lastOutput_cons]
    exact ⟨List.forall_mem_cons.mpr ⟨hinput, hinputs⟩, hlast⟩

theorem candidate_keeps (hrule : ∀ place object, P object → ((rule place).transform object).Gives P)
    {state later : LogState ι} {count : Nat} (hstate : P state.candidate)
    (hreach : Reaches (loggedRound rule before limit) state count later) : P later.candidate := by
  refine hreach.keeps (P := fun state => P state.candidate) (fun state next hround hP => ?_) hstate
  obtain ⟨pass, hpass, -, rfl⟩ := loggedRound_inl hround
  obtain ⟨matched, -, hpass⟩ := Budgeted.ends_bind_ok_iff.mp hpass
  obtain ⟨results, hresults, hpass⟩ := Budgeted.ends_bind_ok_iff.mp hpass
  cases Budgeted.ends_pure_iff.mp hpass
  exact (turns_keep hrule hP hresults).2

/-- What the patched object has and the transforms keep, every object has that a matcher is asked
about. -/
theorem Asks.keeps {place : ι} {next : Object}
    (h : Asks rule hnodup limit before patch place next) (hstart : P (before.overlay patch))
    (hrule : ∀ place object, P object → ((rule place).transform object).Gives P) : P next := by
  cases h with
  | inPass hreach _ => exact candidate_keeps hrule hstart hreach

/-- What the patched object has and the transforms keep, every object has that a transform is applied
to. -/
theorem Applies.keeps {place : ι} {input : Object}
    (h : Applies rule hnodup limit before patch place input) (hstart : P (before.overlay patch))
    (hrule : ∀ place object, P object → ((rule place).transform object).Gives P) : P input := by
  cases h with
  | inTurn hreach _ hturns hturn =>
    exact (turns_keep hrule (candidate_keeps hrule hstart hreach) hturns).1 _ hturn

end Invariants

/-! ### Runs over refined rules -/

variable {rule rule' : ι → Rule} {places : List ι} {hnodup : places.Nodup} {limit : Option Nat}
variable {before patch : Object}

omit [DecidableEq ι] in
/-- Turns come out the same if each transform does on the object that its turn starts from. -/
theorem turns_of_refined {input : Object} {matched : List ι} {results : List (Reference.Turn ι)}
    (h : (turns rule input matched).Ends (.ok results))
    (hrefined : ∀ turn ∈ results, Refines Eq ((rule turn.rule).transform turn.input)
      ((rule' turn.rule).transform turn.input)) :
    (turns rule' input matched).Ends (.ok results) := by
  induction matched generalizing input results with
  | nil => exact h
  | cons place rest ih =>
    obtain ⟨output, houtput, h⟩ := Budgeted.ends_bind_ok_iff.mp h
    obtain ⟨later, hlater, h⟩ := Budgeted.ends_bind_ok_iff.mp h
    cases Budgeted.ends_pure_iff.mp h
    obtain ⟨hfirst, hrest⟩ := List.forall_mem_cons.mp hrefined
    obtain ⟨_, hsame, rfl⟩ := hfirst output houtput
    refine Budgeted.ends_bind_ok_iff.mpr ⟨output, hsame, ?_⟩
    exact Budgeted.ends_bind_ok_iff.mpr ⟨later, ih hlater hrest, Budgeted.ends_pure_iff.mpr rfl⟩

/-- A round that the run comes to is the same over the refined rules. -/
theorem loggedRound_refines (h : RefinedAlong rule hnodup limit before patch rule') {count : Nat}
    {state : LogState ι}
    (hreach : Reaches (loggedRound rule before limit) (.start before patch hnodup) count state) :
    Refines Eq (loggedRound rule before limit state) (loggedRound rule' before limit state) := by
  have hpass : Refines Eq (loggedPass rule before state.candidate state.active)
      (loggedPass rule' before state.candidate state.active) := by
    have hmatched : Refines Eq
        (state.active.filterM fun place => (rule place).matcher.holds ⟨before, state.candidate⟩)
        (state.active.filterM fun place => (rule' place).matcher.holds ⟨before, state.candidate⟩) :=
      .filterM fun place hplace => h.holds place _ (.inPass hreach hplace)
    refine hmatched.bind_of_ends fun matched _ hends hsame => ?_
    subst hsame
    have hturns : Refines Eq (turns rule state.candidate matched)
        (turns rule' state.candidate matched) := by
      intro results hresults
      refine ⟨results, turns_of_refined hresults fun turn hturn => ?_, rfl⟩
      exact h.transform turn.rule turn.input (.inTurn hreach hends hresults hturn)
    refine hturns.bind fun results _ hsame => ?_
    subst hsame
    exact .pure rfl
  refine hpass.bind fun pass _ hsame => ?_
  subst hsame
  exact .of_eq (fun _ => rfl) rfl

/-- A run keeps its result when its rules are replaced by ones that give the same results where the
run uses them. -/
theorem stabilize_refines (h : RefinedAlong rule hnodup limit before patch rule') :
    Refines Eq (stabilize (places.map rule) limit before patch)
      (stabilize (places.map rule') limit before patch) := by
  rw [stabilize_eq_map_loggedRound rule hnodup, stabilize_eq_map_loggedRound rule' hnodup]
  have hloop : Refines Eq
      (Budgeted.loop (loggedRound rule before limit) (.start before patch hnodup))
      (Budgeted.loop (loggedRound rule' before limit) (.start before patch hnodup)) :=
    .loop fun _ _ hreach => loggedRound_refines h hreach
  exact hloop.map fun _ _ => congrArg Prod.fst

end TransitionRules.Run
