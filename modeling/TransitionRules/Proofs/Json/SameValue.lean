/-
TransitionRules/Proofs/Json/SameValue.lean

Equality by value.  Every document has its own value (`Json.sameValue_refl`): a number of a document
is finite, and finite doubles are compared by the number that they denote, which NaN is not.

Two objects have the same value exactly when they agree field by field (`Object.sameValue_iff`).
The comparison itself counts the fields and then looks up each field of one object in the other;
that the other has no further fields follows from the count.
-/
import Mathlib.Data.List.Perm.Subperm
import Mathlib.Data.Option.Basic
import TransitionRules.Json.Basic
import TransitionRules.Proofs.Binary64.Value

namespace TransitionRules

/-! ### The names of a map -/

namespace FieldsAfter

variable {α : Type} {low : Option String}

theorem length_names (fields : FieldsAfter α low) : fields.names.length = fields.size := by
  induction fields with
  | nil => rfl
  | cons name after value rest ih => rw [names, List.length_cons, ih, size]

/-- A name is listed exactly if something is stored under it. -/
theorem mem_names_iff {fields : FieldsAfter α low} {key : String} :
    key ∈ fields.names ↔ fields.get? key ≠ none := by
  induction fields with
  | nil => simp [names]
  | cons name after value rest ih =>
    rw [names, List.mem_cons, ih, get?_cons]
    by_cases h : name = key
    · simp [h]
    · simp [h, Ne.symm h]

theorem nodup_names (fields : FieldsAfter α low) : fields.names.Nodup := by
  induction fields with
  | nil => exact .nil
  | @cons low name after value rest ih =>
    rw [names, List.nodup_cons, mem_names_iff]
    exact ⟨fun h => h (get?_eq_none_of_not_after rest (String.lt_irrefl name)), ih⟩

end FieldsAfter

/-! ### Every document has its own value -/

theorem Number.sameValue_refl (n : Number) : n.sameValue n = true := by
  cases n with
  | int n low high => exact beq_self_eq_true n
  | float x finite => exact (Binary64.beq_iff_value_eq finite finite).mpr rfl

namespace Json

/-- Fields have counterparts if each value has one of the same value under its name. -/
theorem sameFields_iff {low : Option String} {fields : FieldsAfter Json low} {other : Object} :
    sameFields fields other = true ↔
      ∀ key value, fields.get? key = some value →
        ∃ found, other.get? key = some found ∧ value.sameValue found = true := by
  induction fields with
  | nil => simp [sameFields]
  | @cons low name after value rest ih =>
    rw [sameFields, Bool.and_eq_true, ih]
    constructor
    · rintro ⟨hfirst, hrest⟩ key found hkey
      rw [FieldsAfter.get?_cons] at hkey
      split at hkey
      · next hname =>
        cases hkey
        cases hname
        split at hfirst
        · next counterpart hcounterpart => exact ⟨counterpart, hcounterpart, hfirst⟩
        · cases hfirst
      · exact hrest key found hkey
    · intro h
      constructor
      · obtain ⟨found, hfound, hsame⟩ := h name value (by simp [FieldsAfter.get?_cons])
        rw [hfound]
        exact hsame
      · intro key found hkey
        have hne : name ≠ key := by
          rintro rfl
          rw [FieldsAfter.get?_eq_none_of_not_after rest (String.lt_irrefl name)] at hkey
          cases hkey
        exact h key found (by rw [FieldsAfter.get?_cons, if_neg hne, hkey])

mutual

/-- Every document has its own value. -/
theorem sameValue_refl : (document : Json) → document.sameValue document = true
  | .null => rfl
  | .bool b => beq_self_eq_true b
  | .number n => n.sameValue_refl
  | .string s => beq_self_eq_true s
  | .array items => sameItems_refl items
  | .object fields => by
    rw [sameValue, Bool.and_eq_true]
    refine ⟨beq_self_eq_true _, sameFields_iff.mpr fun key value hkey => ?_⟩
    exact ⟨value, hkey, sameValue_refl_of_get? fields key value hkey⟩

theorem sameItems_refl : (items : List Json) → sameItems items items = true
  | [] => rfl
  | item :: rest => by rw [sameItems, sameValue_refl item, sameItems_refl rest]; rfl

theorem sameValue_refl_of_get? : {low : Option String} → (fields : FieldsAfter Json low) →
    (key : String) → (value : Json) → fields.get? key = some value → value.sameValue value = true
  | _, .nil, _, _, h => by cases h
  | _, .cons name _ first rest, key, value, h => by
    rw [FieldsAfter.get?_cons] at h
    split at h
    · cases h
      exact sameValue_refl first
    · exact sameValue_refl_of_get? rest key value h

end

end Json

namespace Object

theorem sameValue_refl (object : Object) : object.sameValue object = true :=
  Json.sameValue_refl (.object object)

/-- Fields that are both missing, or both there with the same value. -/
abbrev SameField : Option Json → Option Json → Prop :=
  Option.Rel fun first second => first.sameValue second = true

theorem SameField.refl (field : Option Json) : SameField field field := by
  cases field with
  | none => exact .none
  | some value => exact .some value.sameValue_refl

/-- Objects have the same value exactly when they agree field by field. -/
theorem sameValue_iff {first second : Object} :
    first.sameValue second = true ↔ ∀ key, SameField (first.get? key) (second.get? key) := by
  rw [Object.sameValue, Json.sameValue, Bool.and_eq_true, beq_iff_eq, Json.sameFields_iff]
  constructor
  · rintro ⟨hsize, hfields⟩ key
    have hsub : first.names ⊆ second.names := by
      intro name hname
      rw [FieldsAfter.mem_names_iff] at hname ⊢
      obtain ⟨value, hvalue⟩ := Option.ne_none_iff_exists'.mp hname
      obtain ⟨found, hfound, -⟩ := hfields name value hvalue
      simp [hfound]
    -- as many names, none of them missing, so no further ones
    have hlength : second.names.length = first.names.length := by
      rw [FieldsAfter.length_names, FieldsAfter.length_names, hsize]
    have hnames : first.names.Perm second.names :=
      ((FieldsAfter.nodup_names first).subperm hsub).perm_of_length_le (Nat.le_of_eq hlength)
    rcases hfirst : first.get? key with - | value
    · have hsecond : second.get? key = none := by
        by_contra h
        exact FieldsAfter.mem_names_iff.mp
          (hnames.mem_iff.mpr (FieldsAfter.mem_names_iff.mpr h)) hfirst
      rw [hsecond]
      exact .none
    · obtain ⟨found, hfound, hsame⟩ := hfields key value hfirst
      rw [hfound]
      exact .some hsame
  · intro h
    -- the same names on both sides, each of them once, so the counts agree
    have hmem : ∀ key, key ∈ first.names ↔ key ∈ second.names := by
      intro key
      rw [FieldsAfter.mem_names_iff, FieldsAfter.mem_names_iff]
      have hkey := h key
      generalize first.get? key = field at hkey ⊢
      generalize second.get? key = field' at hkey ⊢
      cases hkey <;> simp
    have hnames : first.names.Perm second.names :=
      (List.perm_ext_iff_of_nodup (FieldsAfter.nodup_names first)
        (FieldsAfter.nodup_names second)).mpr hmem
    refine ⟨?_, fun key value hvalue => ?_⟩
    · rw [← FieldsAfter.length_names, ← FieldsAfter.length_names, hnames.length_eq]
    · have hkey := h key
      rw [hvalue] at hkey
      cases hkey' : second.get? key with
      | none => rw [hkey'] at hkey; cases hkey
      | some found =>
        rw [hkey'] at hkey
        cases hkey with
        | some hsame => exact ⟨found, rfl, hsame⟩

end Object

end TransitionRules
