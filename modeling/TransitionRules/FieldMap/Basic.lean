/-
TransitionRules/FieldMap/Basic.lean

Finite maps from field names to values, kept as a list of fields in strictly increasing order of
name.  The order is part of the type: `FieldsAfter α low` holds only names after the bound `low`,
so no map can repeat a name or list its fields out of order, and no later statement carries a
well-formedness hypothesis.

The view of a map is `get?`.  Every operation has one equation through it
(`get?_insert`, `get?_erase`, `get?_overlay`, `get?_map`), and a map is determined by its view
(`ext_get?`).
-/

namespace TransitionRules

/-- `After low name`: the name lies after the bound.  With no bound every name does. -/
def After : Option String → String → Prop
  | none, _ => True
  | some low, name => low < name

instance After.instDecidable : (low : Option String) → (name : String) → Decidable (After low name)
  | none, _ => .isTrue trivial
  | some low, name => inferInstanceAs (Decidable (low < name))

theorem after_none (name : String) : After none name := trivial

theorem After.trans {low : Option String} {name other : String}
    (first : After low name) (second : name < other) : After low other := by
  cases low with
  | none => trivial
  | some low => exact String.lt_trans first second

/-- Fields in strictly increasing order of name, all of them after the bound `low`. -/
inductive FieldsAfter (α : Type) : Option String → Type where
  | nil {low : Option String} : FieldsAfter α low
  | cons {low : Option String} (name : String) (after : After low name) (value : α)
      (rest : FieldsAfter α (some name)) : FieldsAfter α low

/-- A finite map from field names to values. -/
abbrev FieldMap (α : Type) := FieldsAfter α none

namespace FieldsAfter

variable {α β : Type}

/-! ### Reading -/

/-- The fields in order. -/
def toList : {low : Option String} → FieldsAfter α low → List (String × α)
  | _, .nil => []
  | _, .cons name _ value rest => (name, value) :: rest.toList

/-- The names in order. -/
def names : {low : Option String} → FieldsAfter α low → List String
  | _, .nil => []
  | _, .cons name _ _ rest => name :: rest.names

/-- The number of fields. -/
def size : {low : Option String} → FieldsAfter α low → Nat
  | _, .nil => 0
  | _, .cons _ _ _ rest => rest.size + 1

/-- The value stored under a name, if there is one. -/
def get? (key : String) : {low : Option String} → FieldsAfter α low → Option α
  | _, .nil => none
  | _, .cons name _ value rest => if name = key then some value else rest.get? key

/-- Whether a name is present. -/
def contains (fields : FieldMap α) (key : String) : Bool :=
  (fields.get? key).isSome

/-- Whether there are no fields at all. -/
def isEmpty : {low : Option String} → FieldsAfter α low → Bool
  | _, .nil => true
  | _, .cons _ _ _ _ => false

/-! ### Building -/

/-- Fields after a later bound are fields after an earlier one. -/
def weaken {low : Option String} {high : String} (after : After low high) :
    FieldsAfter α (some high) → FieldsAfter α low
  | .nil => .nil
  | .cons name later value rest => .cons name (after.trans later) value rest

/-- Stores a value under a name, replacing the one that was there. -/
def insertAfter (key : String) (new : α) :
    {low : Option String} → After low key → FieldsAfter α low → FieldsAfter α low
  | _, hkey, .nil => .cons key hkey new .nil
  | _, hkey, .cons name after value rest =>
    if hlt : key < name then .cons key hkey new (.cons name hlt value rest)
    else if heq : name = key then .cons key hkey new (heq ▸ rest)
    else .cons name after value (rest.insertAfter key new (by
      show name < key
      grind))

/-- Stores a value under a name, replacing the one that was there. -/
def insert (fields : FieldMap α) (key : String) (value : α) : FieldMap α :=
  insertAfter key value (after_none key) fields

/-- Removes a name; a map without it is left as it is. -/
def erase (key : String) : {low : Option String} → FieldsAfter α low → FieldsAfter α low
  | _, .nil => .nil
  | _, .cons name after value rest =>
    if name = key then weaken after rest else .cons name after value (rest.erase key)

/-- Stores every field of `changes` over `base`. -/
def overlay (base : FieldMap α) : {low : Option String} → FieldsAfter α low → FieldMap α
  | _, .nil => base
  | _, .cons name _ value rest => overlay (base.insert name value) rest

/-- The map of a list of fields; of two fields with one name the later one counts. -/
def ofList (fields : List (String × α)) : FieldMap α :=
  fields.foldl (fun map field => map.insert field.1 field.2) .nil

/-- Applies a function to every value. -/
def map (f : α → β) : {low : Option String} → FieldsAfter α low → FieldsAfter β low
  | _, .nil => .nil
  | _, .cons name after value rest => .cons name after (f value) (rest.map f)

/-! ### One equation per operation -/

variable {low : Option String}

@[simp] theorem get?_nil (key : String) : (.nil : FieldsAfter α low).get? key = none := rfl

theorem get?_cons (key name : String) (after : After low name) (value : α)
    (rest : FieldsAfter α (some name)) :
    (FieldsAfter.cons name after value rest).get? key =
      if name = key then some value else rest.get? key := rfl

/-- Nothing is stored under a name at or before the bound. -/
theorem get?_eq_none_of_not_after {key : String} (fields : FieldsAfter α low)
    (h : ¬ After low key) : fields.get? key = none := by
  induction fields with
  | nil => rfl
  | @cons low name after value rest ih =>
    have hne : name ≠ key := by rintro rfl; exact h after
    have hrest : ¬ After (some name) key := fun hlt => h (after.trans hlt)
    simp [get?_cons, hne, ih hrest]

theorem get?_weaken {high : String} (after : After low high) (fields : FieldsAfter α (some high))
    (key : String) : (fields.weaken after).get? key = fields.get? key := by
  cases fields <;> rfl

theorem get?_insertAfter {key : String} (new : α) (hkey : After low key)
    (fields : FieldsAfter α low) (other : String) :
    (fields.insertAfter key new hkey).get? other =
      if key = other then some new else fields.get? other := by
  induction fields with
  | nil => simp [insertAfter, get?_cons]
  | @cons low name after value rest ih =>
    unfold insertAfter
    split
    · rfl
    · split
      · next heq => subst heq; by_cases h : name = other <;> simp [get?_cons, h]
      · next hne =>
        by_cases h : name = other
        · subst h; simp [get?_cons, Ne.symm hne]
        · simp [get?_cons, h, ih]

theorem get?_insert (fields : FieldMap α) (key : String) (value : α) (other : String) :
    (fields.insert key value).get? other =
      if key = other then some value else fields.get? other :=
  get?_insertAfter value (after_none key) fields other

theorem get?_erase (key : String) (fields : FieldsAfter α low) (other : String) :
    (fields.erase key).get? other = if key = other then none else fields.get? other := by
  induction fields with
  | nil => simp [erase]
  | @cons low name after value rest ih =>
    unfold erase
    split
    · next heq =>
      subst heq
      rw [get?_weaken]
      split
      · next h => subst h; exact get?_eq_none_of_not_after rest (String.lt_irrefl _)
      · next h => simp [get?_cons, h]
    · next hne =>
      by_cases h : name = other
      · subst h; simp [get?_cons, Ne.symm hne]
      · simp [get?_cons, h, ih]

theorem get?_overlay (base : FieldMap α) (changes : FieldsAfter α low) (key : String) :
    (overlay base changes).get? key = (changes.get? key).or (base.get? key) := by
  induction changes generalizing base with
  | nil => rfl
  | @cons low name after value rest ih =>
    rw [overlay, ih, get?_insert, get?_cons]
    split
    · next heq =>
      subst heq
      simp [get?_eq_none_of_not_after rest (String.lt_irrefl _)]
    · rfl

theorem get?_map (f : α → β) (fields : FieldsAfter α low) (key : String) :
    (fields.map f).get? key = (fields.get? key).map f := by
  induction fields with
  | nil => rfl
  | cons name after value rest ih =>
    rw [map, get?_cons, get?_cons]
    split
    · rfl
    · exact ih

/-- A map is determined by what is stored under each name. -/
theorem ext_get? {first second : FieldsAfter α low}
    (h : ∀ key, first.get? key = second.get? key) : first = second := by
  induction first with
  | nil =>
    cases second with
    | nil => rfl
    | cons name after value rest => simpa [get?_cons] using h name
  | @cons low name after value rest ih =>
    cases second with
    | nil => simpa [get?_cons] using h name
    | cons name' after' value' rest' =>
      have hname : name = name' := by
        by_cases hlt : name < name'
        · have := h name
          rw [get?_cons, get?_cons, if_pos rfl, if_neg (by grind),
            get?_eq_none_of_not_after rest' (by show ¬ name' < name; grind)] at this
          cases this
        · by_cases hgt : name' < name
          · have := h name'
            rw [get?_cons, get?_cons, if_pos rfl, if_neg (by grind),
              get?_eq_none_of_not_after rest (by show ¬ name < name'; grind)] at this
            cases this
          · grind
      subst hname
      have hvalue : value = value' := by simpa [get?_cons] using h name
      have hrest : rest = rest' := ih fun key => by
        by_cases hkey : name = key
        · subst hkey
          rw [get?_eq_none_of_not_after rest (String.lt_irrefl _),
            get?_eq_none_of_not_after rest' (String.lt_irrefl _)]
        · simpa [get?_cons, hkey] using h key
      rw [hvalue, hrest]

end FieldsAfter

end TransitionRules
