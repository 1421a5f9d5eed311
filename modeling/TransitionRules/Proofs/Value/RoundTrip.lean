/-
TransitionRules/Proofs/Value/RoundTrip.lean

Documents as values and back.  A value has more numbers than a document, but those of a document
come back as they were: its integers fit a signed or an unsigned word, and its doubles are finite.
So a document comes back from being a value (`toJson_ofJson`), and an object that becomes a value is
one again (`toObject_ofObject`).
-/
import TransitionRules.Value.Basic

namespace TransitionRules.Value

/-! ### Numbers -/

theorem toJson_ofInteger {n : Int} (low : -0x8000000000000000 ≤ n)
    (high : n < 0x10000000000000000) : (ofInteger n).toJson = .number (.int n low high) := by
  unfold ofInteger
  by_cases hsigned : -0x8000000000000000 ≤ n ∧ n < 0x8000000000000000
  · have hword : (Int64.ofInt n).toInt = n := Int64.toInt_ofInt_of_le hsigned.1 hsigned.2
    rw [if_pos hsigned]
    show Json.number (.int (Int64.ofInt n).toInt _ _) = _
    simp only [hword]
  · -- what no signed word holds is not negative
    have hunsigned : 0 ≤ n ∧ n < 0x10000000000000000 := by omega
    have hsize : n.toNat < UInt64.size := by
      show n.toNat < 0x10000000000000000
      omega
    have hword : ((UInt64.ofNat n.toNat).toNat : Int) = n := by
      rw [UInt64.toNat_ofNat_of_lt' hsize, Int.toNat_of_nonneg hunsigned.1]
    rw [if_neg hsigned, if_pos hunsigned]
    show Json.number (.int (UInt64.ofNat n.toNat).toNat _ _) = _
    simp only [hword]

theorem toJson_ofNumber (n : Number) : (ofNumber n).toJson = .number n := by
  cases n with
  | int n low high => exact toJson_ofInteger low high
  | float x finite =>
    show floatToJson x = _
    rw [floatToJson, Number.ofFloat?, dif_pos finite]

/-! ### Documents -/

mutual

/-- A document comes back from being a value. -/
theorem toJson_ofJson : ∀ document : Json, (ofJson document).toJson = document
  | .null => rfl
  | .bool _ => rfl
  | .number n => toJson_ofNumber n
  | .string _ => rfl
  | .array items => congrArg Json.array (toJsonItems_ofJsonItems items)
  | .object fields => congrArg Json.object (toJsonFields_ofJsonFields fields)

theorem toJsonItems_ofJsonItems : ∀ items : List Json, toJsonItems (ofJsonItems items) = items
  | [] => rfl
  | item :: rest => by
    show (ofJson item).toJson :: toJsonItems (ofJsonItems rest) = _
    rw [toJson_ofJson item, toJsonItems_ofJsonItems rest]

theorem toJsonFields_ofJsonFields : ∀ {low : Option String} (fields : FieldsAfter Json low),
    toJsonFields (ofJsonFields fields) = fields
  | _, .nil => rfl
  | _, .cons name after value rest => by
    show FieldsAfter.cons name after (ofJson value).toJson (toJsonFields (ofJsonFields rest)) = _
    rw [toJson_ofJson value, toJsonFields_ofJsonFields rest]

end

/-- An object that becomes a value is an object again, whatever its role. -/
theorem toObject_ofObject (role : String) (object : Object) :
    (ofObject object).toObject role = .ok object := by
  have hback : (ofObject object).toJson = .object object :=
    congrArg Json.object (toJsonFields_ofJsonFields object)
  rw [toObject, hback]

end TransitionRules.Value
