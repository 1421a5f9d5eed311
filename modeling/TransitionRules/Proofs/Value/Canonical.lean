/-
TransitionRules/Proofs/Value/Canonical.lean

Values with one form for each integer.  The signed and the unsigned words overlap; a value is
canonical if no unsigned integer in it, at any depth, is one that a signed word holds.

What is read from a document is canonical (`canonical_ofJson`), and a canonical value whose doubles
are finite comes back from being a document (`ofJson_toJson`).  The operators keep values canonical:
an integer computed from unsigned ones is narrowed afterwards (`canonical_ofInteger`).
-/
import TransitionRules.Proofs.Json.Parts
import TransitionRules.Proofs.Value.RoundTrip
import TransitionRules.Value.Arithmetic

namespace TransitionRules

namespace Value

/-! ### Values inside a value -/

/-- A value contains another one, at any depth. -/
inductive Occurs : Value → Value → Prop
  | here {value : Value} : Occurs value value
  | item {items : List Value} {item inner : Value} :
      item ∈ items → Occurs item inner → Occurs (.list items) inner
  | field {fields : FieldMap Value} {name : String} {value inner : Value} :
      fields.get? name = some value → Occurs value inner → Occurs (.map fields) inner

/-- Every unsigned integer in the value is above the signed ones. -/
def Canonical (value : Value) : Prop :=
  ∀ n, value.Occurs (.uint n) → 0x8000000000000000 ≤ n.toNat

/-- Every double in the value is finite. -/
def HasFiniteFloats (value : Value) : Prop :=
  ∀ x, value.Occurs (.float x) → x.isFinite = true

variable {items : List Value} {fields : FieldMap Value}

@[simp] theorem canonical_null : Canonical .null := fun _ h => nomatch h

@[simp] theorem canonical_bool (b : Bool) : Canonical (.bool b) := fun _ h => nomatch h

@[simp] theorem canonical_int (n : Int64) : Canonical (.int n) := fun _ h => nomatch h

@[simp] theorem canonical_float (x : Float) : Canonical (.float x) := fun _ h => nomatch h

@[simp] theorem canonical_string (s : String) : Canonical (.string s) := fun _ h => nomatch h

@[simp] theorem canonical_uint_iff {n : UInt64} :
    Canonical (.uint n) ↔ 0x8000000000000000 ≤ n.toNat :=
  ⟨fun h => h n .here, fun h _ hinner => by cases hinner; exact h⟩

@[simp] theorem canonical_list_iff :
    Canonical (.list items) ↔ ∀ item ∈ items, Canonical item := by
  refine ⟨fun h item hitem n hinner => h n (.item hitem hinner), fun h n hinner => ?_⟩
  cases hinner with
  | item hitem hinner => exact h _ hitem n hinner

@[simp] theorem canonical_map_iff :
    Canonical (.map fields) ↔ ∀ name value, fields.get? name = some value → Canonical value := by
  refine ⟨fun h name value hvalue n hinner => h n (.field hvalue hinner), fun h n hinner => ?_⟩
  cases hinner with
  | field hvalue hinner => exact h _ _ hvalue n hinner

theorem HasFiniteFloats.of_item (h : HasFiniteFloats (.list items)) :
    ∀ item ∈ items, HasFiniteFloats item :=
  fun _ hitem x hinner => h x (.item hitem hinner)

theorem HasFiniteFloats.of_field (h : HasFiniteFloats (.map fields)) :
    ∀ name value, fields.get? name = some value → HasFiniteFloats value :=
  fun _ _ hvalue x hinner => h x (.field hvalue hinner)

/-! ### Canonical values and documents -/

/-- An integer as a value is unsigned only above the signed ones. -/
theorem canonical_ofInteger (n : Int) : Canonical (ofInteger n) := by
  unfold ofInteger
  split
  · exact canonical_int _
  · split
    · next hsigned hunsigned =>
      -- only what no signed word holds comes here
      have hsize : n.toNat < UInt64.size := by
        show n.toNat < 0x10000000000000000
        omega
      rw [canonical_uint_iff, UInt64.toNat_ofNat_of_lt' hsize]
      omega
    · exact canonical_float _

mutual

theorem canonical_ofJson : ∀ document : Json, Canonical (ofJson document)
  | .null => canonical_null
  | .bool b => canonical_bool b
  | .number (.int n _ _) => canonical_ofInteger n
  | .number (.float x _) => canonical_float x
  | .string s => canonical_string s
  | .array items => canonical_list_iff.mpr (canonical_ofJsonItems items)
  | .object fields => canonical_map_iff.mpr (canonical_ofJsonFields fields)

theorem canonical_ofJsonItems : ∀ (items : List Json), ∀ item ∈ ofJsonItems items, Canonical item
  | [] => List.forall_mem_nil _
  | item :: rest =>
    List.forall_mem_cons.mpr ⟨canonical_ofJson item, canonical_ofJsonItems rest⟩

theorem canonical_ofJsonFields : ∀ {low : Option String} (fields : FieldsAfter Json low),
    ∀ name value, (ofJsonFields fields).get? name = some value → Canonical value
  | _, .nil => fun _ _ h => nomatch h
  | _, .cons _ _ value rest =>
    FieldsAfter.forall_get?_cons_iff.mpr ⟨canonical_ofJson value, canonical_ofJsonFields rest⟩

end

/-- A signed word is the form of its integer. -/
theorem ofInteger_toInt (n : Int64) : ofInteger n.toInt = .int n := by
  have hlow := Int64.le_toInt n
  have hhigh := Int64.toInt_lt n
  rw [ofInteger, if_pos ⟨hlow, hhigh⟩, Int64.ofInt_toInt]

/-- An unsigned word above the signed ones is the form of its integer. -/
theorem ofInteger_toNat {n : UInt64} (h : 0x8000000000000000 ≤ n.toNat) :
    ofInteger n.toNat = .uint n := by
  have hhigh := UInt64.toNat_lt n
  rw [ofInteger, if_neg (by omega), if_pos (by omega), Int.toNat_natCast, UInt64.ofNat_toNat]

theorem ofJson_floatToJson {x : Float} (h : x.isFinite = true) :
    ofJson (floatToJson x) = .float x := by
  rw [floatToJson, Number.ofFloat?, dif_pos h]
  rfl

mutual

/-- A canonical value with finite doubles comes back from being a document. -/
theorem ofJson_toJson : ∀ value : Value, value.Canonical → value.HasFiniteFloats →
    ofJson value.toJson = value
  | .null, _, _ => rfl
  | .bool _, _, _ => rfl
  | .int n, _, _ => ofInteger_toInt n
  | .uint n, hcanonical, _ => by
    show ofInteger n.toNat = _
    exact ofInteger_toNat (canonical_uint_iff.mp hcanonical)
  | .float x, _, hfinite => ofJson_floatToJson (hfinite x .here)
  | .string _, _, _ => rfl
  | .list items, hcanonical, hfinite =>
    congrArg Value.list
      (ofJsonItems_toJsonItems items (canonical_list_iff.mp hcanonical) hfinite.of_item)
  | .map fields, hcanonical, hfinite =>
    congrArg Value.map
      (ofJsonFields_toJsonFields fields (canonical_map_iff.mp hcanonical) hfinite.of_field)

theorem ofJsonItems_toJsonItems : ∀ items : List Value, (∀ item ∈ items, item.Canonical) →
    (∀ item ∈ items, item.HasFiniteFloats) → ofJsonItems (toJsonItems items) = items
  | [], _, _ => rfl
  | item :: rest, hcanonical, hfinite => by
    rw [List.forall_mem_cons] at hcanonical hfinite
    show ofJson item.toJson :: ofJsonItems (toJsonItems rest) = _
    rw [ofJson_toJson item hcanonical.1 hfinite.1,
      ofJsonItems_toJsonItems rest hcanonical.2 hfinite.2]

theorem ofJsonFields_toJsonFields : ∀ {low : Option String} (fields : FieldsAfter Value low),
    (∀ name value, fields.get? name = some value → value.Canonical) →
    (∀ name value, fields.get? name = some value → value.HasFiniteFloats) →
    ofJsonFields (toJsonFields fields) = fields
  | _, .nil, _, _ => rfl
  | _, .cons name after value rest, hcanonical, hfinite => by
    rw [FieldsAfter.forall_get?_cons_iff] at hcanonical hfinite
    show FieldsAfter.cons name after (ofJson value.toJson) (ofJsonFields (toJsonFields rest)) = _
    rw [ofJson_toJson value hcanonical.1 hfinite.1,
      ofJsonFields_toJsonFields rest hcanonical.2 hfinite.2]

end

/-! ### Arithmetic -/

variable {op : BinaryOp} {operation : Operation} {base key left right result : Value}

theorem canonical_arithmetic (h : arithmetic op operation left right = .ok result) :
    result.Canonical := by
  unfold arithmetic at h
  split at h
  · cases h
    exact canonical_int _
  · dsimp only at h
    split at h
    · cases h
      exact canonical_ofInteger _
    · cases h
      exact canonical_float _
  · cases h
    exact canonical_float _
  · cases h

theorem canonical_add (h : add left right = .ok result) : result.Canonical := by
  unfold add at h
  split at h
  · cases h
    exact canonical_string _
  · exact canonical_arithmetic h

theorem canonical_div (h : div left right = .ok result) : result.Canonical := by
  unfold div at h
  split at h
  · split at h
    · cases h
    · cases h
      exact canonical_int _
  · split at h
    · cases h
    · cases h
      exact canonical_ofInteger _
  · split at h
    · cases h
    · cases h
      exact canonical_float _
  · cases h

theorem canonical_mod (h : mod left right = .ok result) : result.Canonical := by
  unfold mod at h
  split at h
  · split at h
    · cases h
    · cases h
      exact canonical_int _
  · split at h
    · cases h
    · cases h
      exact canonical_ofInteger _
  · cases h
    exact canonical_float _
  · cases h

theorem canonical_negate (h : left.negate = .ok result) : result.Canonical := by
  unfold negate at h
  split at h
  · cases h
    exact canonical_int _
  · cases h
    exact canonical_ofInteger _
  · cases h
    exact canonical_float _
  · cases h

/-! ### Parts -/

/-- What is not there reads as null. -/
theorem canonical_getD {found : Option Value} (h : ∀ value, found = some value → value.Canonical) :
    (found.getD .null).Canonical := by
  cases found with
  | none => exact canonical_null
  | some value => exact h value rfl

theorem Canonical.field (hbase : base.Canonical) {name : String}
    (h : base.field name = .ok result) : result.Canonical := by
  unfold Value.field at h
  split at h
  · cases h
    exact canonical_getD (canonical_map_iff.mp hbase name)
  · cases h
    exact canonical_null
  · cases h

theorem Canonical.item (hbase : base.Canonical) (h : base.item key = .ok result) :
    result.Canonical := by
  unfold Value.item at h
  split at h
  · cases h
    refine canonical_getD fun value hvalue => ?_
    obtain ⟨place, -, hplace⟩ := Option.bind_eq_some_iff.mp hvalue
    exact canonical_list_iff.mp hbase value (List.mem_of_getElem? hplace)
  · cases h
    exact canonical_getD (canonical_map_iff.mp hbase _)
  · cases h
    exact canonical_null
  · cases h

/-! ### Maps that are edited -/

theorem canonical_insert (hfields : Canonical (.map fields)) (name : String) {value : Value}
    (hvalue : value.Canonical) : Canonical (.map (fields.insert name value)) := by
  rw [canonical_map_iff] at hfields ⊢
  intro other found hfound
  rw [FieldsAfter.get?_insert] at hfound
  split at hfound
  · cases hfound
    exact hvalue
  · exact hfields other found hfound

theorem canonical_erase (hfields : Canonical (.map fields)) (name : String) :
    Canonical (.map (fields.erase name)) := by
  rw [canonical_map_iff] at hfields ⊢
  intro other found hfound
  rw [FieldsAfter.get?_erase] at hfound
  split at hfound
  · cases hfound
  · exact hfields other found hfound

theorem canonical_overlay (hfields : Canonical (.map fields)) {changes : FieldMap Value}
    (hchanges : Canonical (.map changes)) : Canonical (.map (fields.overlay changes)) := by
  rw [canonical_map_iff] at hfields hchanges ⊢
  intro name found hfound
  rw [FieldsAfter.get?_overlay, Option.or_eq_some_iff] at hfound
  obtain hnew | ⟨-, hold⟩ := hfound
  · exact hchanges name found hnew
  · exact hfields name found hold

end Value

end TransitionRules
