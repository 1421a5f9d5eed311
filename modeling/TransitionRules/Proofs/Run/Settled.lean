/-
TransitionRules/Proofs/Run/Settled.lean

Running rules again on what they have settled.  If the matchers of the rules do not look at the
object at the start of the run, the last pass of a run depends on its candidate and on the rules that
are still active.  If these are all the rules, because none retired before that pass, the first pass
of a run from the settled object is that pass once more, and it ends the run with the same object.

Rules of the last pass may well change the candidate, as long as others change it back; so the pass
is replayed as a whole (`pass_agrees`), and no rule is said to do nothing by itself.

Main result: `stabilize_idempotent`.
-/
import TransitionRules.Proofs.Run.Passes

namespace TransitionRules.Run

open Budgeted (Agrees Reaches)

/-- The answers of the rule's matcher do not depend on the object at the start of the run. -/
def IgnoresBefore (rule : Rule) : Prop :=
  ∀ before before' next,
    Agrees Eq (rule.matcher.holds ⟨before, next⟩) (rule.matcher.holds ⟨before', next⟩)

variable {before before' candidate : Object} {limit : Option Nat} {state later : TracedState}
variable {count : Nat}

/-- A pass over rules that do not look at the start of the run does not depend on it. -/
theorem pass_agrees {active : List Rule} (h : ∀ rule ∈ active, IgnoresBefore rule) :
    Agrees Eq (pass before candidate active) (pass before' candidate active) := by
  have hselect : Agrees Eq (select ⟨before, candidate⟩ active.zipIdx)
      (select ⟨before', candidate⟩ active.zipIdx) := by
    rw [select_eq_filterM, select_eq_filterM]
    refine Budgeted.filterM_congr fun entry hentry => ?_
    exact h entry.1 (List.fst_mem_of_mem_zipIdx hentry) before before' candidate
  refine hselect.bind fun selected _ hselected => ?_
  subst hselected
  exact .refl (fun _ => rfl) _

/-! ### Runs in which no rule retires -/

/-- A pass that retires no rule leaves all of them active. -/
theorem active_of_pass {active : List Rule} {result : Pass}
    (h : (pass before candidate active).Ends (.ok result)) (hnone : result.retired = []) :
    result.active = active := by
  obtain ⟨selected, -, h⟩ := Budgeted.ends_bind_ok_iff.mp h
  obtain ⟨effect, -, h⟩ := Budgeted.ends_bind_ok_iff.mp h
  cases Budgeted.ends_pure_iff.mp h
  have hretired : effect.retired = [] := List.map_eq_nil_iff.mp hnone
  show retain active (effect.retired.map Prod.snd) = active
  rw [hretired, List.map_nil, retain_nil]

/-- Passes that retire no rule leave all of them active. -/
theorem active_of_reaches (h : Reaches (tracedRound before limit) state count later)
    (hnone : later.trace.retired = []) :
    state.trace.retired = [] ∧ later.active = state.active := by
  induction h with
  | start => exact ⟨hnone, rfl⟩
  | next hround _ ih =>
    obtain ⟨result, hresult, -, -, rfl⟩ := tracedRound_inl hround
    obtain ⟨hretired, hactive⟩ := ih hnone
    obtain ⟨hbefore, hnow⟩ := List.append_eq_nil_iff.mp hretired
    exact ⟨hbefore, hactive.trans (active_of_pass hresult (List.map_eq_nil_iff.mp hnow))⟩

/-- Rules retire in passes that have been made. -/
theorem retired_pass_le_of_reaches (h : Reaches (tracedRound before limit) state count later)
    (hstate : ∀ retired ∈ state.trace.retired, retired.pass ≤ state.trace.iterations) :
    ∀ retired ∈ later.trace.retired, retired.pass ≤ later.trace.iterations := by
  refine h.keeps (P := fun state => ∀ retired ∈ state.trace.retired,
    retired.pass ≤ state.trace.iterations) (fun middle next hround hmiddle => ?_) hstate
  obtain ⟨result, -, -, -, rfl⟩ := tracedRound_inl hround
  intro retired hretired
  obtain hold | hnew := List.mem_append.mp hretired
  · exact Nat.le_succ_of_le (hmiddle retired hold)
  · obtain ⟨name, -, rfl⟩ := List.mem_map.mp hnew
    exact Nat.le_refl _

/-! ### The run from a settled object -/

/-- **Settling is idempotent.**  Let the rules not look at the object at the start of a run, and let
a run with any limit settle on an object, no rule retiring before the last pass.  Then a run from
that object without a patch, with any limit or none, ends in its first pass with the very same
object, and the same rules match in it as in the last pass before. -/
theorem stabilize_idempotent {rules : List Rule} (hrules : ∀ rule ∈ rules, IgnoresBefore rule)
    {limit : Option Nat} {before patch settled : Object} {trace : Trace}
    (hrun : (stabilizeTraced rules limit before patch).Ends (.ok (settled, trace)))
    (hkept : ∀ retired ∈ trace.retired, ¬ retired.pass < trace.iterations) (limit' : Option Nat) :
    PlainEndsInPass rules limit' settled .nil 1 (.ok settled) ∧
      ∃ again, EndsInPass rules limit' settled .nil 1 (.ok (settled, again)) ∧
        again.iterations = 1 ∧
        again.passes.getLast?.map PassTrace.matched =
          trace.passes.getLast?.map PassTrace.matched := by
  obtain ⟨number, hend⟩ := stabilizeTraced_ends_iff.mp hrun
  obtain ⟨earlier, state, -, hreach, hlast⟩ := hend.last
  obtain ⟨last, hpass, hstable, hresult⟩ := tracedRound_inr_iff.mp hlast
  obtain ⟨rfl, rfl⟩ := Prod.mk.inj hresult
  -- what is on record before the last pass would have retired too early
  have hnone : state.trace.retired = [] := by
    refine List.eq_nil_iff_forall_not_mem.mpr fun retired hretired => ?_
    have hle := retired_pass_le_of_reaches hreach (by simp) retired hretired
    exact hkept retired (List.mem_append_left _ hretired) (Nat.lt_succ_of_le hle)
  obtain ⟨-, hactive⟩ := active_of_reaches hreach hnone
  rw [hactive] at hpass
  -- so all rules were active in the last pass, which is made again from the settled object
  obtain ⟨_, hagain, halike⟩ := (pass_agrees hrules).forward (y := pass state.candidate _ _) _ hpass
  cases halike with
  | @ok _ last' hlast' =>
    subst hlast'
    have hround : EndsInPass rules limit' state.candidate .nil 1
        (.ok (state.candidate, Trace.record {} 1 last.matched last.retired)) :=
      .answer (tracedRound_inr_iff.mpr ⟨last, hagain, hstable, rfl⟩)
    refine ⟨plainEndsInPass_iff.mpr ⟨_, hround, rfl⟩, _, hround, rfl, ?_⟩
    simp [Trace.record]

/-- A rule that turns a field on or off. -/
def switch (on : Bool) : Rule where
  name := if on then "on" else "off"
  matcher := .constant true
  transform object := pure (object.insert "on" (.bool on))

theorem switch_ignoresBefore (on : Bool) : IgnoresBefore (switch on) :=
  fun _ _ _ => .refl (fun _ => rfl) _

/-- The object with the field off. -/
def switchedOff : Object := FieldsAfter.nil.insert "on" (.bool false)

/-- Turning the field on and off again settles in the second pass, with two rules that both change
their objects in it; from there one pass is enough. -/
theorem stabilize_idempotent_switch :
    (∀ rule ∈ [switch true, switch false], IgnoresBefore rule) ∧
      (stabilizeTraced [switch true, switch false] (some 2) .nil .nil).Ends
        (.ok (switchedOff, ⟨2, [⟨1, ["on", "off"]⟩, ⟨2, ["on", "off"]⟩], []⟩)) ∧
      PlainEndsInPass [switch true, switch false] (some 1) switchedOff .nil 1 (.ok switchedOff) := by
  have hrules : ∀ rule ∈ [switch true, switch false], IgnoresBefore rule := by
    simp [switch_ignoresBefore]
  have hrun : EndsInPass [switch true, switch false] (some 2) .nil .nil 2
      (.ok (switchedOff, ⟨2, [⟨1, ["on", "off"]⟩, ⟨2, ["on", "off"]⟩], []⟩)) :=
    .next ⟨0, rfl⟩ (.answer ⟨0, rfl⟩)
  have hagain := stabilize_idempotent hrules hrun.ends_loop (by simp) (some 1)
  exact ⟨hrules, hrun.ends_loop, hagain.1⟩

end TransitionRules.Run
