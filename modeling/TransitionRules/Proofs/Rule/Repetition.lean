/-
TransitionRules/Proofs/Rule/Repetition.lean

Chains of actions that are done twice.  A chain that has been done has nothing left to do: done again
on its own output it gives that output.

This cannot be read off the actions one by one, because another action may undo what one did, and two
patches in a row are not always a patch: a patch of a field that was set before replaces what was
there, while two patches of that field merge.  What can be told is the form of the whole edit of a
field (`IsEdit`): it keeps the content, or it puts a content there that does not depend on the old
one, or it leaves an object whose fields are edited, each by itself.  Edits of this form are closed
under doing one after the other (`IsEdit.after`), at any depth, and each of them does nothing the
second time (`IsEdit.again`).

Main result: `actionsTransform_again`.
-/
import TransitionRules.Proofs.Json.Parts
import TransitionRules.Proofs.Rule.ActionFields
import TransitionRules.Rule.Compile

namespace TransitionRules

namespace Json

/-! ### Edits of a field -/

/-- The fields of the content of a field; what is missing or no object has none. -/
def contentFields (content : Option Json) : Object := (content.getD .null).fieldsOrNone

/-- What chains of actions can do to the content of a field. -/
inductive IsEdit : (Option Json → Option Json) → Prop
  /-- The content stays. -/
  | keep : IsEdit fun content => content
  /-- The content is replaced, whatever it was. -/
  | replace (new : Option Json) : IsEdit fun _ => new
  /-- The content becomes an object, and each of its fields is edited by itself. -/
  | fields {edit : Option Json → Option Json} (within : String → Option Json → Option Json)
      (hwithin : ∀ key, IsEdit (within key))
      (hedit : ∀ content, ∃ object : Object, edit content = some (.object object) ∧
        ∀ key, object.get? key = within key ((contentFields content).get? key)) :
      IsEdit edit

/-- One edit after another is an edit. -/
theorem IsEdit.after {first second : Option Json → Option Json} (hsecond : IsEdit second)
    (hfirst : IsEdit first) : IsEdit fun content => second (first content) := by
  induction hsecond generalizing first with
  | keep => exact hfirst
  | replace new => exact .replace new
  | @fields second within hwithin hedit ih =>
    cases hfirst with
    | keep => exact .fields within hwithin hedit
    | replace new => exact .replace (second new)
    | @fields first within' hwithin' hedit' =>
      -- the first edit leaves an object, so that the second one merges into it field by field
      refine .fields (fun key content => within key (within' key content))
        (fun key => ih key (hwithin' key)) fun content => ?_
      obtain ⟨middle, hmiddle, hfields'⟩ := hedit' content
      obtain ⟨object, hobject, hfields⟩ := hedit (first content)
      refine ⟨object, hobject, fun key => ?_⟩
      rw [hfields key, hmiddle]
      show within key (middle.get? key) = _
      rw [hfields' key]

/-- An edit does nothing the second time. -/
theorem IsEdit.again {edit : Option Json → Option Json} (h : IsEdit edit) (content : Option Json) :
    edit (edit content) = edit content := by
  induction h generalizing content with
  | keep => rfl
  | replace new => rfl
  | @fields edit within hwithin hedit ih =>
    obtain ⟨once, honce, hfields⟩ := hedit content
    obtain ⟨twice, htwice, hfields'⟩ := hedit (edit content)
    have hsame : twice = once := by
      apply FieldsAfter.ext_get?
      intro key
      rw [hfields' key, honce]
      show within key (once.get? key) = _
      rw [hfields key]
      exact ih key _
    rw [htwice, honce, hsame]

/-- A patch of a field is an edit. -/
theorem isEdit_patchAt (change : Option Json) : IsEdit (patchAt change) := by
  cases change with
  | none => exact .keep
  | some value =>
    -- a value that is no object replaces the content, an object edits its fields
    induction value with
    | null => exact .replace none
    | bool b => exact .replace (some (.bool b))
    | number n => exact .replace (some (.number n))
    | string s => exact .replace (some (.string s))
    | array items => exact .replace (some (.array items))
    | object changes ih =>
      have hwithin : ∀ key, IsEdit (patchAt (changes.get? key)) := by
        intro key
        rcases hchange : changes.get? key with - | value
        · exact .keep
        · exact ih key value hchange
      refine .fields (fun key => patchAt (changes.get? key)) hwithin fun content => ?_
      exact ⟨patchFields changes (contentFields content), rfl,
        get?_patchFields changes (contentFields content)⟩

end Json

namespace Action

open Json (IsEdit)

/-! ### Chains -/

theorem isEdit_applyAt (action : Action) (key : String) : IsEdit (action.applyAt key) := by
  cases action with
  | remove field =>
    show IsEdit fun content => if field = key then none else content
    split
    · exact .replace none
    · exact .keep
  | set field value =>
    show IsEdit fun content => if field = key then some value else content
    split
    · exact .replace (some value)
    · exact .keep
  | patch changes => exact Json.isEdit_patchAt (changes.get? key)

theorem isEdit_applyAllAt (actions : List Action) (key : String) :
    IsEdit (applyAllAt key actions) := by
  induction actions with
  | nil => exact .keep
  | cons action rest ih => exact ih.after (isEdit_applyAt action key)

/-- A chain done on its own output gives that output. -/
theorem applyAll_again (actions : List Action) (object : Object) :
    applyAll actions (applyAll actions object) = applyAll actions object := by
  apply FieldsAfter.ext_get?
  intro key
  rw [get?_applyAll, get?_applyAll]
  exact (isEdit_applyAllAt actions key).again (object.get? key)

end Action

namespace Declaration

variable {specs : List ActionSpec} {transform : Transform}

/-- The transform of a list of written actions is a chain of the actions that they stand for. -/
theorem actionsTransform_eq_chain (h : actionsTransform specs = .ok transform) :
    ∃ actions, Action.ofSpecs 0 specs = .ok actions ∧
      transform = fun object => pure (Action.applyAll actions object) := by
  unfold actionsTransform at h
  split at h
  · cases h
  · rcases hactions : Action.ofSpecs 0 specs with fault | actions
    · rw [hactions] at h
      cases h
    · rw [hactions] at h
      cases h
      exact ⟨actions, rfl, rfl⟩

/-- **Action chains are idempotent.**  Whatever actions are written, in whatever order: if they can be
compiled, their transform gives an object for every object, and on that object it gives it again. -/
theorem actionsTransform_again (h : actionsTransform specs = .ok transform) (object : Object) :
    ∃ output, transform object = pure output ∧ transform output = pure output := by
  obtain ⟨actions, -, rfl⟩ := actionsTransform_eq_chain h
  refine ⟨Action.applyAll actions object, rfl, ?_⟩
  show pure _ = pure _
  rw [Action.applyAll_again]

/-- A field with a value. -/
def single (name : String) (value : Json) : Object := FieldsAfter.nil.insert name value

/-- Removes a field, sets another one, and merges twice into what was set. -/
def reworked : List ActionSpec :=
  [⟨"remove", [.string "draft"]⟩,
    ⟨"set", [.string "meta", .string "none"]⟩,
    ⟨"patch", [.object (single "meta" (.object (single "kind" (.bool true))))]⟩,
    ⟨"patch", [.object (single "meta" (.object (single "kind" .null)))]⟩]

/-- The second patch removes what the first one added, and the second time there is again nothing
else to do. -/
theorem actionsTransform_again_reworked :
    ∃ transform, actionsTransform reworked = .ok transform ∧
      transform (single "draft" (.bool true)) = pure (single "meta" (.object .nil)) ∧
      transform (single "meta" (.object .nil)) = pure (single "meta" (.object .nil)) := by
  have hcompile : actionsTransform reworked = .ok _ := rfl
  refine ⟨_, hcompile, ?_⟩
  obtain ⟨output, honce, htwice⟩ := actionsTransform_again hcompile (single "draft" (.bool true))
  have houtput : single "meta" (.object .nil) = output :=
    Except.ok.inj (Option.some.inj (congrArg (fun result => result.within 0) honce))
  rw [houtput]
  exact ⟨honce, htwice⟩

end Declaration

end TransitionRules
