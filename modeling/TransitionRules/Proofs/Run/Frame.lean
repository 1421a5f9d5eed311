/-
TransitionRules/Proofs/Run/Frame.lean

The frame of a run: what no rule touches stays as it is.  A rule keeps a field if its transform leaves
in it whatever was there (`KeepsField`), as a chain of actions does with the fields that it does not
name (`PerformsChains.keepsField`).

What every rule keeps, a pass keeps, whichever rules match and whichever retire (`pass_keeps`), and so
does a run (`stabilize_keeps`) and a fold of patches, as far as these do not name the field
(`Reducer.reduce_keeps`).

Main result: `stabilize_frame`.
-/
import TransitionRules.Proofs.Run.Chains
import TransitionRules.Run.Reducer

namespace TransitionRules

/-- What is laid over an object touches no field but those that it names. -/
theorem Object.get?_overlay_of_notMem {patch : Object} {key : String} (h : key ∉ patch.names)
    (object : Object) : (object.overlay patch).get? key = object.get? key := by
  rw [FieldsAfter.mem_names_iff, not_not] at h
  rw [FieldsAfter.get?_overlay, h, Option.none_or]

namespace Run

open Budgeted (Gives Reaches)

/-- The transform of the rule leaves in the field what was there. -/
def KeepsField (key : String) (rule : Rule) : Prop :=
  ∀ object, (rule.transform object).Gives fun output => output.get? key = object.get? key

/-- A chain of actions keeps the fields that it does not name. -/
theorem PerformsChains.keepsField {ι : Type} {rule : ι → Rule} {chain : ι → List Action}
    (h : PerformsChains rule chain) {place : ι} {key : String}
    (hkey : key ∉ Action.chainFields (chain place)) : KeepsField key (rule place) := by
  intro object
  rw [h place object, Budgeted.gives_pure_iff]
  exact Action.get?_applyAll_of_notMem hkey object

/-! ### From a rule to a run -/

variable {key : String} {before : Object} {limit : Option Nat}

theorem perform_keeps {selected : List (Rule × Nat)}
    (h : ∀ entry ∈ selected, KeepsField key entry.1) (input : Object) :
    (perform input selected).Gives fun effect => effect.output.get? key = input.get? key := by
  induction selected generalizing input with
  | nil => exact Budgeted.gives_pure_iff.mpr rfl
  | cons entry rest ih =>
    obtain ⟨hentry, hrest⟩ := List.forall_mem_cons.mp h
    refine (hentry input).bind fun output houtput => ?_
    refine (ih hrest output).bind fun effect heffect => ?_
    -- whether the rule retires makes no difference to the output
    have hkept : effect.output.get? key = input.get? key := heffect.trans houtput
    split
    · exact Budgeted.gives_pure_iff.mpr hkept
    · exact Budgeted.gives_pure_iff.mpr hkept

/-- What the active rules keep, the pass keeps. -/
theorem pass_keeps {candidate : Object} {active : List Rule}
    (h : ∀ rule ∈ active, KeepsField key rule) :
    (pass before candidate active).Gives fun result =>
      result.output.get? key = candidate.get? key := by
  intro result hresult
  obtain ⟨selected, hselected, hresult⟩ := Budgeted.ends_bind_ok_iff.mp hresult
  obtain ⟨effect, heffect, hresult⟩ := Budgeted.ends_bind_ok_iff.mp hresult
  cases Budgeted.ends_pure_iff.mp hresult
  refine perform_keeps (fun entry hentry => ?_) candidate effect heffect
  exact h entry.1 (List.fst_mem_of_mem_zipIdx ((select_sublist hselected).subset hentry))

/-- What the active rules keep, any number of passes keep: only active rules stay active. -/
theorem candidate_of_reaches {state later : TracedState} {count : Nat}
    (h : ∀ rule ∈ state.active, KeepsField key rule)
    (hreach : Reaches (tracedRound before limit) state count later) :
    later.candidate.get? key = state.candidate.get? key := by
  -- the candidate is the output of the pass before, so what the passes keep adds up
  refine (hreach.keeps (P := fun later => (∀ rule ∈ later.active, KeepsField key rule) ∧
    later.candidate.get? key = state.candidate.get? key) ?_ ⟨h, rfl⟩).2
  rintro middle next hround ⟨hactive, hcandidate⟩
  obtain ⟨result, hresult, -, -, rfl⟩ := tracedRound_inl hround
  have hsub := (active_sublist_of_pass hresult).subset
  exact ⟨fun rule hrule => hactive rule (hsub hrule),
    (pass_keeps hactive result hresult).trans hcandidate⟩

/-- What the rules keep, a run keeps from the patched object on. -/
theorem stabilize_keeps {rules : List Rule} (h : ∀ rule ∈ rules, KeepsField key rule)
    (limit : Option Nat) (before patch : Object) :
    (stabilize rules limit before patch).Gives fun settled =>
      settled.get? key = (before.overlay patch).get? key := by
  intro settled hrun
  obtain ⟨number, hplain⟩ := stabilize_ends_iff.mp hrun
  obtain ⟨result, hend, hsettled⟩ := plainEndsInPass_iff.mp hplain
  cases result with
  | error e => cases hsettled
  | ok result =>
    cases hsettled
    -- the object of the run is the candidate of its last pass
    obtain ⟨earlier, final, -, hreach, hlast⟩ := hend.last
    obtain ⟨last, -, -, rfl⟩ := tracedRound_inr_iff.mp hlast
    exact candidate_of_reaches h hreach

/-! ### Chains of actions -/

/-- **The frame of a run.**  Let the transforms of the rules be chains of actions.  If a run ends with an
object, each field of it that no action names is that of the patched object, and that of the object
before if the patch does not name it either: it is there if it was there, with the same value. -/
theorem stabilize_frame {rules : List Rule} {chain : Fin rules.length → List Action}
    (hchains : PerformsChains rules.get chain) {limit : Option Nat} {before patch settled : Object}
    (hrun : (stabilize rules limit before patch).Ends (.ok settled)) :
    ∀ key, (∀ place, key ∉ Action.chainFields (chain place)) →
      settled.get? key = (before.overlay patch).get? key ∧
        (key ∉ patch.names → settled.get? key = before.get? key) := by
  intro key hkey
  have hrules : ∀ rule ∈ rules, KeepsField key rule := by
    intro rule hrule
    obtain ⟨place, rfl⟩ := List.get_of_mem hrule
    exact hchains.keepsField (hkey place)
  have hpatched := stabilize_keeps hrules limit before patch settled hrun
  refine ⟨hpatched, fun hpatch => ?_⟩
  rw [hpatched, Object.get?_overlay_of_notMem hpatch]

/-- Marks an object with a new title. -/
def retitled : Rule :=
  chainRule "retitled" (.predicate fun context => pure (context.changed "title"))
    [.set "seen" (.bool true)]

/-- A draft with a title. -/
def drafted : Object := (FieldsAfter.nil.insert "draft" .null).insert "title" (.string "a")

/-- The mark leaves the draft as it was. -/
theorem stabilize_frame_drafted :
    let patch : Object := FieldsAfter.nil.insert "title" (.string "b")
    let settled : Object := (drafted.overlay patch).insert "seen" (.bool true)
    PerformsChains [retitled].get (fun _ => [.set "seen" (.bool true)]) ∧
      (stabilize [retitled] none drafted patch).Ends (.ok settled) ∧
      settled.get? "draft" = drafted.get? "draft" := by
  intro patch settled
  have hchains : PerformsChains [retitled].get fun _ => [.set "seen" (.bool true)] := by
    intro place object
    match place with
    | 0 => rfl
  have hrun : (stabilize [retitled] none drafted patch).Ends (.ok settled) :=
    stabilize_ends_iff.mpr ⟨2, .next ⟨0, rfl⟩ (.answer ⟨0, rfl⟩)⟩
  have hfields : "draft" ∉ Action.chainFields [.set "seen" (.bool true)] := by decide
  have hframe := stabilize_frame hchains hrun "draft" fun _ => hfields
  exact ⟨hchains, hrun, hframe.2 (by decide)⟩

end Run

namespace Reducer

/-- What the rules keep and no patch names stays as it is through a fold of patches. -/
theorem reduce_keeps {reducer : Reducer} {key : String}
    (hrules : ∀ rule ∈ reducer.rules, Run.KeepsField key rule) {patches : List Object}
    (hpatches : ∀ patch ∈ patches, key ∉ patch.names) (base : Object) :
    (reducer.reduce base patches).Gives fun final => final.get? key = base.get? key := by
  have happly : ∀ base patch, key ∉ patch.names →
      (reducer.apply base patch).Gives fun next => next.get? key = base.get? key := by
    intro base patch hpatch next hnext
    rw [Run.stabilize_keeps hrules reducer.limit base patch next hnext,
      Object.get?_overlay_of_notMem hpatch]
  have hall : ∀ base, (reducer.applyAll base patches).Gives fun final =>
      final.get? key = base.get? key := by
    induction patches with
    | nil => exact fun base => Budgeted.gives_pure_iff.mpr rfl
    | cons patch rest ih =>
      intro base
      obtain ⟨hpatch, hrest⟩ := List.forall_mem_cons.mp hpatches
      refine (happly base patch hpatch).bind fun next hnext final hfinal => ?_
      exact (ih hrest next final hfinal).trans hnext
  rw [reduce]
  -- without patches the rules run once, on the base as it is
  split
  · exact happly base .nil List.not_mem_nil
  · exact hall base

end Reducer

end TransitionRules
