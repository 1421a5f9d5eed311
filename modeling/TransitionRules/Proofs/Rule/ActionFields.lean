/-
TransitionRules/Proofs/Rule/ActionFields.lean

Actions field by field.  What an action leaves in a field depends on what was in that field alone
(`Action.applyAt`, `get?_apply`), and it touches no field but those that it names
(`applyAt_of_notMem`).  So chains of actions that name different fields commute
(`applyAll_comm`), and whether a chain leaves an object as it was can be read off its own fields
(`sameValue_applyAll_congr`).
-/
import TransitionRules.Proofs.Json.SameValue
import TransitionRules.Rule.Action

namespace TransitionRules

namespace Json

/-- A field of a patched object: the patch's null removes it, another value of the patch is merged
into it. -/
def patchAt (change content : Option Json) : Option Json :=
  match change with
  | none => content
  | some value => if value.isNull then none else some (mergePatch value (content.getD .null))

theorem get?_patchFields {low : Option String} (changes : FieldsAfter Json low) (target : Object)
    (key : String) :
    (patchFields changes target).get? key = patchAt (changes.get? key) (target.get? key) := by
  induction changes generalizing target with
  | nil => simp [patchFields, patchAt]
  | @cons low name after value rest ih =>
    rw [patchFields, FieldsAfter.get?_cons]
    by_cases hname : name = key
    · -- the fields behind this one have other names
      subst hname
      have hrest : rest.get? name = none :=
        FieldsAfter.get?_eq_none_of_not_after rest (String.lt_irrefl name)
      rw [if_pos rfl, patchAt]
      split
      · next hnull => rw [ih, hrest, patchAt, FieldsAfter.get?_erase, if_pos rfl]
      · next hvalue => rw [ih, hrest, patchAt, FieldsAfter.get?_insert, if_pos rfl]
    · rw [if_neg hname]
      split
      · rw [ih, FieldsAfter.get?_erase, if_neg hname]
      · rw [ih, FieldsAfter.get?_insert, if_neg hname]

end Json

namespace Action

/-! ### One action -/

/-- The fields that an action names. -/
def fields : Action → List String
  | .remove field => [field]
  | .set field _ => [field]
  | .patch changes => changes.names

/-- What an action makes of the content of a field. -/
def applyAt (key : String) (action : Action) (content : Option Json) : Option Json :=
  match action with
  | .remove field => if field = key then none else content
  | .set field value => if field = key then some value else content
  | .patch changes => Json.patchAt (changes.get? key) content

theorem get?_apply (action : Action) (object : Object) (key : String) :
    (action.apply object).get? key = action.applyAt key (object.get? key) := by
  cases action with
  | remove field => exact FieldsAfter.get?_erase field object key
  | set field value => exact FieldsAfter.get?_insert object field value key
  | patch changes => exact Json.get?_patchFields changes object key

theorem applyAt_of_notMem {action : Action} {key : String} (h : key ∉ action.fields)
    (content : Option Json) : action.applyAt key content = content := by
  cases action with
  | remove field => exact if_neg fun hfield => h (by simp [fields, hfield])
  | set field value => exact if_neg fun hfield => h (by simp [fields, hfield])
  | patch changes =>
    rw [fields, FieldsAfter.mem_names_iff, not_not] at h
    rw [applyAt, h, Json.patchAt]

/-! ### Chains of actions -/

/-- The fields that a chain of actions names. -/
def chainFields (actions : List Action) : List String := actions.flatMap fields

/-- What a chain of actions makes of the content of a field. -/
def applyAllAt (key : String) (actions : List Action) (content : Option Json) : Option Json :=
  actions.foldl (fun content action => action.applyAt key content) content

theorem get?_applyAll (actions : List Action) (object : Object) (key : String) :
    (applyAll actions object).get? key = applyAllAt key actions (object.get? key) := by
  induction actions generalizing object with
  | nil => rfl
  | cons action rest ih =>
    rw [applyAll, List.foldl_cons, applyAllAt, List.foldl_cons, ← get?_apply]
    exact ih (action.apply object)

theorem applyAllAt_of_notMem {actions : List Action} {key : String}
    (h : key ∉ chainFields actions) (content : Option Json) :
    applyAllAt key actions content = content := by
  induction actions generalizing content with
  | nil => rfl
  | cons action rest ih =>
    rw [chainFields, List.flatMap_cons, List.mem_append, not_or] at h
    rw [applyAllAt, List.foldl_cons, applyAt_of_notMem h.1]
    exact ih h.2 content

/-- A chain touches no field but those that it names. -/
theorem get?_applyAll_of_notMem {actions : List Action} {key : String}
    (h : key ∉ chainFields actions) (object : Object) :
    (applyAll actions object).get? key = object.get? key := by
  rw [get?_applyAll, applyAllAt_of_notMem h]

/-- Chains that name different fields commute. -/
theorem applyAll_comm {first second : List Action}
    (h : (chainFields first).Disjoint (chainFields second)) (object : Object) :
    applyAll second (applyAll first object) = applyAll first (applyAll second object) := by
  refine FieldsAfter.ext_get? fun key => ?_
  simp only [get?_applyAll]
  -- no field is named by both, so one of the two leaves it alone in either order
  by_cases hfirst : key ∈ chainFields first
  · have hsecond : key ∉ chainFields second := fun hmem => h hfirst hmem
    rw [applyAllAt_of_notMem hsecond, applyAllAt_of_notMem hsecond]
  · rw [applyAllAt_of_notMem hfirst, applyAllAt_of_notMem hfirst]

/-- Whether a chain leaves an object as it was depends on the fields that it names alone. -/
theorem sameValue_applyAll_congr {actions : List Action} {first second : Object}
    (h : ∀ key ∈ chainFields actions, first.get? key = second.get? key) :
    (applyAll actions first).sameValue first = (applyAll actions second).sameValue second := by
  rw [Bool.eq_iff_iff, Object.sameValue_iff, Object.sameValue_iff]
  refine forall_congr' fun key => ?_
  by_cases hkey : key ∈ chainFields actions
  · -- the content before decides the content after, and both are the same
    rw [get?_applyAll, get?_applyAll, h key hkey]
  · rw [get?_applyAll_of_notMem hkey, get?_applyAll_of_notMem hkey]
    exact iff_of_true (.refl _) (.refl _)

end Action

end TransitionRules
