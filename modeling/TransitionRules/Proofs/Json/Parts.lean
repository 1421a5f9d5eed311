/-
TransitionRules/Proofs/Json/Parts.lean

Documents by their parts.  A document holds a list of items or an object with its fields, so that the
induction that Lean makes for documents speaks of both as well.  `Json.byParts` is the one to use: its
hypotheses are about the items that are members of the list and about the values that stand under some
name.
-/
import TransitionRules.Json.Basic

namespace TransitionRules

namespace FieldsAfter

variable {α : Type} {low : Option String} {name : String} {after : After low name} {value : α}
variable {rest : FieldsAfter α (some name)}

/-- The first field hides none of the others. -/
theorem get?_cons_of_get? {key : String} {found : α} (h : rest.get? key = some found) :
    (cons name after value rest).get? key = some found := by
  have hne : name ≠ key := by
    rintro rfl
    rw [get?_eq_none_of_not_after rest (String.lt_irrefl name)] at h
    cases h
  rw [get?_cons, if_neg hne, h]

/-- What is stored under some name is what the first field has or what the others have. -/
theorem forall_get?_cons_iff {p : α → Prop} :
    (∀ key found, (cons name after value rest).get? key = some found → p found) ↔
      p value ∧ ∀ key found, rest.get? key = some found → p found := by
  constructor
  · intro h
    refine ⟨h name value (by rw [get?_cons, if_pos rfl]), fun key found hfound => ?_⟩
    exact h key found (get?_cons_of_get? hfound)
  · rintro ⟨hvalue, hrest⟩ key found hfound
    rw [get?_cons] at hfound
    split at hfound
    · cases hfound
      exact hvalue
    · exact hrest key found hfound

end FieldsAfter

/-- Induction over documents. -/
@[elab_as_elim, induction_eliminator]
theorem Json.byParts {motive : Json → Prop} (null : motive .null) (bool : ∀ b, motive (.bool b))
    (number : ∀ n, motive (.number n)) (string : ∀ s, motive (.string s))
    (array : ∀ items, (∀ item ∈ items, motive item) → motive (.array items))
    (object : ∀ fields : Object, (∀ name value, fields.get? name = some value → motive value) →
      motive (.object fields)) : ∀ document, motive document :=
  @Json.rec motive (fun items => ∀ item ∈ items, motive item)
    (fun _ fields => ∀ name value, fields.get? name = some value → motive value)
    null bool number string array object
    (List.forall_mem_nil _) (fun _ _ h hrest => List.forall_mem_cons.mpr ⟨h, hrest⟩)
    (fun _ _ h => nomatch h)
    (fun _ _ _ _ h hrest => FieldsAfter.forall_get?_cons_iff.mpr ⟨h, hrest⟩)

end TransitionRules
