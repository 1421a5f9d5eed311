/-
TransitionRules/Proofs/Value/Fields.lean

Objects as maps of values, field by field.  Converting the fields of an object applies one function to
each of them (`ofJsonFields_eq_map`, `toJsonFields_eq_map`), so it makes no difference whether fields
are edited before it or after it (`toJsonFields_erase`, `toJsonFields_insert`,
`toJsonFields_overlay`).
-/
import TransitionRules.Proofs.Value.RoundTrip

namespace TransitionRules

/-- Applying a function to every field does not change their number. -/
theorem FieldsAfter.size_map {α β : Type} {low : Option String} (f : α → β)
    (fields : FieldsAfter α low) : (fields.map f).size = fields.size := by
  induction fields with
  | nil => rfl
  | cons name after value rest ih => rw [FieldsAfter.map, size, size, ih]

namespace Value

/-! ### Field by field -/

theorem ofJsonFields_eq_map {low : Option String} (fields : FieldsAfter Json low) :
    ofJsonFields fields = fields.map ofJson := by
  induction fields with
  | nil => rfl
  | cons name after value rest ih => rw [ofJsonFields, ih, FieldsAfter.map]

theorem toJsonFields_eq_map {low : Option String} (fields : FieldsAfter Value low) :
    toJsonFields fields = fields.map toJson := by
  induction fields with
  | nil => rfl
  | cons name after value rest ih => rw [toJsonFields, ih, FieldsAfter.map]

theorem get?_ofJsonFields {low : Option String} (fields : FieldsAfter Json low) (key : String) :
    (ofJsonFields fields).get? key = (fields.get? key).map ofJson := by
  rw [ofJsonFields_eq_map, FieldsAfter.get?_map]

/-- What a field reads as; one that is missing reads as null. -/
theorem getD_get?_ofJsonFields (object : Object) (name : String) :
    ((ofJsonFields object).get? name).getD .null = ofJson ((object.get? name).getD .null) := by
  rw [get?_ofJsonFields]
  exact Option.getD_map ofJson .null (object.get? name)

theorem get?_toJsonFields {low : Option String} (fields : FieldsAfter Value low) (key : String) :
    (toJsonFields fields).get? key = (fields.get? key).map toJson := by
  rw [toJsonFields_eq_map, FieldsAfter.get?_map]

theorem size_ofJsonFields {low : Option String} (fields : FieldsAfter Json low) :
    (ofJsonFields fields).size = fields.size := by
  rw [ofJsonFields_eq_map, FieldsAfter.size_map]

/-! ### Edits before and after -/

variable (fields : FieldMap Value) (name : String)

theorem toJsonFields_erase :
    toJsonFields (fields.erase name) = FieldsAfter.erase name (toJsonFields fields) := by
  apply FieldsAfter.ext_get?
  intro key
  rw [get?_toJsonFields, FieldsAfter.get?_erase, FieldsAfter.get?_erase, get?_toJsonFields]
  split
  · rfl
  · rfl

theorem toJsonFields_insert (value : Value) :
    toJsonFields (fields.insert name value) = (toJsonFields fields).insert name value.toJson := by
  apply FieldsAfter.ext_get?
  intro key
  rw [get?_toJsonFields, FieldsAfter.get?_insert, FieldsAfter.get?_insert, get?_toJsonFields]
  split
  · rfl
  · rfl

theorem toJsonFields_overlay (changes : FieldMap Value) :
    toJsonFields (fields.overlay changes) =
      (toJsonFields fields).overlay (toJsonFields changes) := by
  apply FieldsAfter.ext_get?
  intro key
  rw [get?_toJsonFields, FieldsAfter.get?_overlay, FieldsAfter.get?_overlay, get?_toJsonFields,
    get?_toJsonFields, Option.map_or]

end Value

end TransitionRules
