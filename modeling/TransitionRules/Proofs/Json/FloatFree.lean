/-
TransitionRules/Proofs/Json/FloatFree.lean

Documents without doubles.  Equality by value takes `1` and `1.0` for the same, and so it is coarser
than equality; doubles are all that stands between the two.  On documents without doubles, objects
without doubles among them, equality by value is equality (`Json.sameValue_iff_eq`,
`Object.sameValue_iff_eq`).

Laying fields over an object brings in no double that was not there before, and neither does merging
a patch into it (`Object.FloatFree.overlay`, `Json.floatFree_patchAt`).
-/
import TransitionRules.Proofs.Json.Parts
import TransitionRules.Proofs.Rule.ActionFields

namespace TransitionRules

/-- No number in the document is a double. -/
inductive Json.FloatFree : Json → Prop
  | null : FloatFree .null
  | bool (b : Bool) : FloatFree (.bool b)
  | int (n : Int) (low : -0x8000000000000000 ≤ n) (high : n < 0x10000000000000000) :
      FloatFree (.number (.int n low high))
  | string (s : String) : FloatFree (.string s)
  | array {items : List Json} (h : ∀ item ∈ items, FloatFree item) : FloatFree (.array items)
  | object {fields : Object} (h : ∀ name value, fields.get? name = some value → FloatFree value) :
      FloatFree (.object fields)

/-- No number in the object is a double. -/
def Object.FloatFree (object : Object) : Prop :=
  ∀ name value, object.get? name = some value → value.FloatFree

namespace Json

variable {first second : Json}

/-! ### Equality by value is equality -/

/-- Lists have the same values if they have the same length and the same values position by
position. -/
theorem sameItems_iff {items others : List Json} :
    sameItems items others = true ↔
      List.Forall₂ (fun item other => item.sameValue other = true) items others := by
  induction items generalizing others with
  | nil => cases others <;> simp [sameItems]
  | cons item rest ih =>
    cases others with
    | nil => simp [sameItems]
    | cons other others => rw [sameItems, Bool.and_eq_true, ih, List.forall₂_cons]

/-- Items that are equal as soon as they have the same value make lists of which the same holds. -/
theorem eq_of_sameItems {items others : List Json} (hothers : ∀ other ∈ others, other.FloatFree)
    (hitems : ∀ item ∈ items, ∀ {other : Json}, other.FloatFree →
      item.sameValue other = true → item = other)
    (h : sameItems items others = true) : items = others := by
  have hsame := sameItems_iff.mp h
  clear h
  induction hsame with
  | nil => rfl
  | cons hfirst _ ih =>
    rw [List.forall_mem_cons] at hitems hothers
    rw [hitems.1 hothers.1 hfirst, ih hothers.2 hitems.2]

/-- The same for fields. -/
theorem eq_of_sameField {field other : Option Json} (h : Object.SameField field other)
    (hvalues : ∀ value found, field = some value → other = some found →
      value.sameValue found = true → value = found) : field = other := by
  cases h with
  | none => rfl
  | some hsame => rw [hvalues _ _ rfl rfl hsame]

theorem eq_of_sameValue (hfirst : first.FloatFree) (hsecond : second.FloatFree)
    (h : first.sameValue second = true) : first = second := by
  induction hfirst generalizing second with
  | null =>
    cases hsecond with
    | null => rfl
    | _ => cases h
  | bool b =>
    cases hsecond with
    | bool c => exact congrArg Json.bool (beq_iff_eq.mp h)
    | _ => cases h
  | int n low high =>
    cases hsecond with
    | int m low' high' =>
      obtain rfl : n = m := beq_iff_eq.mp h
      rfl
    | _ => cases h
  | string s =>
    cases hsecond with
    | string t => exact congrArg Json.string (beq_iff_eq.mp h)
    | _ => cases h
  | array _ ih =>
    cases hsecond with
    | array hothers => exact congrArg Json.array (eq_of_sameItems hothers ih h)
    | _ => cases h
  | @object fields _ ih =>
    cases hsecond with
    | @object others hothers =>
      -- the two agree field by field, and on each field the induction applies
      apply congrArg Json.object
      apply FieldsAfter.ext_get?
      intro name
      apply eq_of_sameField (Object.sameValue_iff.mp h name)
      intro value other hvalue hother hsame
      exact ih name value hvalue (hothers name other hother) hsame
    | _ => cases h

/-- On documents without doubles, equality by value is equality. -/
theorem sameValue_iff_eq (hfirst : first.FloatFree) (hsecond : second.FloatFree) :
    first.sameValue second = true ↔ first = second := by
  constructor
  · exact eq_of_sameValue hfirst hsecond
  · rintro rfl
    exact sameValue_refl first

/-! ### Merge patches -/

/-- A field into which a patch without doubles is merged. -/
theorem floatFree_patchAt {change content : Option Json} {result : Json}
    (hchange : ∀ value, change = some value → ∀ {target : Json}, target.FloatFree →
      (mergePatch value target).FloatFree)
    (hcontent : ∀ value, content = some value → value.FloatFree)
    (h : patchAt change content = some result) : result.FloatFree := by
  cases change with
  | none => exact hcontent result h
  | some value =>
    rw [patchAt] at h
    split at h
    · cases h
    · cases h
      apply hchange value rfl
      cases content with
      | none => exact .null
      | some target => exact hcontent target rfl

theorem floatFree_mergePatch {change target : Json} (hchange : change.FloatFree)
    (htarget : target.FloatFree) : (mergePatch change target).FloatFree := by
  induction hchange generalizing target with
  | null => exact .null
  | bool b => exact .bool b
  | int n low high => exact .int n low high
  | string s => exact .string s
  | array h _ => exact .array h
  | @object changes _ ih =>
    have hfields : Object.FloatFree target.fieldsOrNone := by
      intro name value hvalue
      cases htarget with
      | object h => exact h name value hvalue
      | _ => cases hvalue
    show FloatFree (.object (patchFields changes target.fieldsOrNone))
    apply FloatFree.object
    intro name value hvalue
    rw [get?_patchFields] at hvalue
    exact floatFree_patchAt (ih name) (hfields name) hvalue

end Json

namespace Object

variable {first second : Object}

theorem floatFree_nil : FloatFree .nil := fun _ _ h => nomatch h

/-- What stands in a field has no doubles, and neither has the null that a missing field reads as. -/
theorem FloatFree.getD_get? (h : first.FloatFree) (name : String) :
    ((first.get? name).getD .null).FloatFree := by
  rcases hvalue : first.get? name with - | value
  · exact .null
  · exact h name value hvalue

theorem FloatFree.insert (h : first.FloatFree) (name : String) {value : Json}
    (hvalue : value.FloatFree) : Object.FloatFree (FieldsAfter.insert first name value) := by
  intro other found hfound
  rw [FieldsAfter.get?_insert] at hfound
  split at hfound
  · cases hfound
    exact hvalue
  · exact h other found hfound

theorem FloatFree.overlay (hfirst : first.FloatFree) (hsecond : second.FloatFree) :
    Object.FloatFree (FieldsAfter.overlay first second) := by
  intro name value hvalue
  rw [FieldsAfter.get?_overlay, Option.or_eq_some_iff] at hvalue
  obtain hvalue | ⟨-, hvalue⟩ := hvalue
  · exact hsecond name value hvalue
  · exact hfirst name value hvalue

/-- On objects without doubles, equality by value is equality. -/
theorem sameValue_iff_eq (hfirst : first.FloatFree) (hsecond : second.FloatFree) :
    first.sameValue second = true ↔ first = second := by
  rw [Object.sameValue, Json.sameValue_iff_eq (.object hfirst) (.object hsecond), Json.object.injEq]

end Object

end TransitionRules
