/-
TransitionRules/Proofs/Expr/Literal.lean

Documents as literals.  A document that is written into an expression stays as it is under
simplification, whatever it looks like, and is evaluated to the value that the document has, with one
loss: an expression has no unsigned words, so that an integer above the signed ones becomes a double
(`Value.rounded`, `eval_literal`).

Hence the document comes back from the value of its literal exactly if all its integers are signed
words (`toJson_rounded_iff`).  Main result: `literal_verbatim_iff`.
-/
import TransitionRules.Expr.ArraySyntax
import TransitionRules.Expr.Eval
import TransitionRules.Expr.Simplify
import TransitionRules.Proofs.Budgeted
import TransitionRules.Proofs.Json.Parts
import TransitionRules.Proofs.Value.Fields
import TransitionRules.Proofs.Value.Integers

namespace TransitionRules

/-- Every integer in the document is a signed word. -/
inductive Json.FitsWords : Json → Prop
  | null : FitsWords .null
  | bool (b : Bool) : FitsWords (.bool b)
  | int {n : Int} (low : -0x8000000000000000 ≤ n) (high : n < 0x10000000000000000)
      (h : n < 0x8000000000000000) : FitsWords (.number (.int n low high))
  | float (x : Float) (finite : x.isFinite = true) : FitsWords (.number (.float x finite))
  | string (s : String) : FitsWords (.string s)
  | array {items : List Json} (h : ∀ item ∈ items, FitsWords item) : FitsWords (.array items)
  | object {fields : Object} (h : ∀ name value, fields.get? name = some value → FitsWords value) :
      FitsWords (.object fields)

/-- Laying fields over no fields at all gives these fields. -/
theorem FieldsAfter.overlay_nil {α : Type} (fields : FieldMap α) :
    overlay .nil fields = fields := by
  apply ext_get?
  intro key
  rw [get?_overlay, get?_nil, Option.or_none]

namespace Value

/-! ### Rounded values -/

mutual

/-- A value with doubles in the place of its unsigned integers. -/
def rounded : Value → Value
  | .uint n => .float (Float.ofInt n.toNat)
  | .list items => .list (roundedItems items)
  | .map fields => .map (roundedFields fields)
  | other => other

def roundedItems : List Value → List Value
  | [] => []
  | item :: rest => rounded item :: roundedItems rest

def roundedFields : {low : Option String} → FieldsAfter Value low → FieldsAfter Value low
  | _, .nil => .nil
  | _, .cons name after value rest => .cons name after (rounded value) (roundedFields rest)

end

end Value

namespace Expr

open Value (ofJson ofJsonItems ofJsonFields rounded roundedItems roundedFields)

variable {scope : Scope}

/-! ### Evaluation -/

theorem eval_ofNumber (n : Number) :
    (ofNumber n).eval scope = pure (Value.ofNumber n).rounded := by
  cases n with
  | float x finite => rfl
  | int n low high =>
    rw [Value.ofNumber]
    have hholds := Value.holds_ofInteger n
    generalize Value.ofInteger n = value at hholds ⊢
    cases hholds with
    | signed w =>
      have hword : w.toInt < 0x8000000000000000 := Int64.toInt_lt w
      rw [ofNumber, if_pos hword, Int64.ofInt_toInt]
      rfl
    | unsigned w hw =>
      rw [ofNumber, if_neg (by omega)]
      rfl
    | double x hout => exact absurd ⟨low, high⟩ hout

mutual

/-- A literal is evaluated to its document, with doubles in the place of unsigned integers. -/
theorem eval_literal : ∀ document : Json,
    (literal document).eval scope = pure (ofJson document).rounded
  | .null => rfl
  | .bool _ => rfl
  | .number n => eval_ofNumber n
  | .string _ => rfl
  | .array items => by
    rw [literal, eval, evalItems_literals items]
    rfl
  | .object fields => by
    rw [literal, eval, evalEntries_literalFields fields .nil, FieldsAfter.overlay_nil]
    rfl

theorem evalItems_literals : ∀ items : List Json,
    evalItems (literals items) scope = pure (roundedItems (ofJsonItems items))
  | [] => rfl
  | item :: rest => by
    rw [literals, evalItems, eval_literal item, evalItems_literals rest]
    rfl

theorem evalEntries_literalFields : ∀ {low : Option String} (fields : FieldsAfter Json low)
    (done : FieldMap Value), evalEntries (literalFields fields) done scope =
      pure (done.overlay (roundedFields (ofJsonFields fields)))
  | _, .nil, _ => rfl
  | _, .cons name _ value rest, done => by
    rw [literalFields, evalEntries, eval_literal value, pure_bind,
      evalEntries_literalFields rest]
    rfl

end

/-! ### Simplification -/

mutual

/-- There is nothing to compute in a literal. -/
theorem simplify_literal : ∀ document : Json, (literal document).simplify = .ok (literal document)
  | .null => rfl
  | .bool _ => rfl
  | .number (.int n low high) => by
    rw [literal, ofNumber]
    split
    · rfl
    · rfl
  | .number (.float _ _) => rfl
  | .string _ => rfl
  | .array items => by
    rw [literal, simplify, simplifyAll_literals items]
    rfl
  | .object fields => by
    rw [literal, simplify, simplifyEntries_literalFields fields]
    rfl

theorem simplifyAll_literals : ∀ items : List Json,
    simplifyAll (literals items) = .ok (literals items)
  | [] => rfl
  | item :: rest => by
    rw [literals, simplifyAll, simplify_literal item, simplifyAll_literals rest]
    rfl

theorem simplifyEntries_literalFields : ∀ {low : Option String} (fields : FieldsAfter Json low),
    simplifyEntries (literalFields fields) = .ok (literalFields fields)
  | _, .nil => rfl
  | _, .cons name _ value rest => by
    rw [literalFields, simplifyEntries, simplify_literal value, simplifyEntries_literalFields rest]
    rfl

end

end Expr

/-! ### Back to documents -/

namespace Json

variable {items : List Json} {fields : Object}

theorem fitsWords_array_iff :
    FitsWords (.array items) ↔ ∀ item ∈ items, item.FitsWords :=
  ⟨fun h => by cases h with | array h => exact h, .array⟩

theorem fitsWords_object_iff :
    FitsWords (.object fields) ↔
      ∀ name value, fields.get? name = some value → value.FitsWords :=
  ⟨fun h => by cases h with | object h => exact h, .object⟩

end Json

namespace Value

theorem toJson_rounded_ofNumber_iff (n : Number) :
    (ofNumber n).rounded.toJson = .number n ↔ (Json.number n).FitsWords := by
  cases n with
  | float x finite => exact ⟨fun _ => .float x finite, fun _ => toJson_ofNumber (.float x finite)⟩
  | int n low high =>
    rw [ofNumber]
    have hholds := holds_ofInteger n
    generalize ofInteger n = value at hholds ⊢
    cases hholds with
    | signed w => exact ⟨fun _ => .int low high (Int64.toInt_lt w), fun _ => rfl⟩
    | unsigned w hw =>
      constructor
      · intro h
        cases integer?_of_toJson h
      · intro h
        cases h
        omega
    | double x hout => exact absurd ⟨low, high⟩ hout

theorem toJsonItems_rounded_iff {items : List Json}
    (hitems : ∀ item ∈ items, (ofJson item).rounded.toJson = item ↔ item.FitsWords) :
    toJsonItems (roundedItems (ofJsonItems items)) = items ↔ ∀ item ∈ items, item.FitsWords := by
  induction items with
  | nil => exact ⟨fun _ => List.forall_mem_nil _, fun _ => rfl⟩
  | cons item rest ih =>
    rw [List.forall_mem_cons] at hitems ⊢
    rw [← hitems.1, ← ih hitems.2]
    exact List.cons_eq_cons

theorem toJsonFields_rounded_iff {low : Option String} {fields : FieldsAfter Json low}
    (hfields : ∀ name value, fields.get? name = some value →
      ((ofJson value).rounded.toJson = value ↔ value.FitsWords)) :
    toJsonFields (roundedFields (ofJsonFields fields)) = fields ↔
      ∀ name value, fields.get? name = some value → value.FitsWords := by
  induction fields with
  | nil => exact ⟨fun _ _ _ h => (nomatch h), fun _ => rfl⟩
  | cons name after value rest ih =>
    rw [FieldsAfter.forall_get?_cons_iff] at hfields ⊢
    rw [← hfields.1, ← ih hfields.2, ofJsonFields, roundedFields, toJsonFields,
      FieldsAfter.cons.injEq]
    simp only [true_and, heq_eq_eq]

/-- With doubles in the place of its unsigned integers, a document comes back from being a value
exactly if it has none. -/
theorem toJson_rounded_iff (document : Json) :
    (ofJson document).rounded.toJson = document ↔ document.FitsWords := by
  induction document with
  | null => exact ⟨fun _ => .null, fun _ => rfl⟩
  | bool b => exact ⟨fun _ => .bool b, fun _ => rfl⟩
  | string s => exact ⟨fun _ => .string s, fun _ => rfl⟩
  | number n => exact toJson_rounded_ofNumber_iff n
  | array items ih =>
    rw [Json.fitsWords_array_iff, ← toJsonItems_rounded_iff ih]
    exact Json.array.injEq _ _ ▸ Iff.rfl
  | object fields ih =>
    rw [Json.fitsWords_object_iff, ← toJsonFields_rounded_iff ih]
    exact Json.object.injEq _ _ ▸ Iff.rfl

end Value

/-- **Literals.**  In an array, a document behind the name `literal` is taken as it is, and
simplification leaves it so.  Its value, whatever the scope, is the value of the document with doubles
in the place of unsigned integers; the document comes back from it exactly if all its integers are
signed words. -/
theorem literal_verbatim_iff (document : Json) :
    Expr.ofArrays (.array [.string "literal", document]) = .ok (Expr.literal document) ∧
    (Expr.literal document).simplify = .ok (Expr.literal document) ∧
    (∀ scope, (Expr.literal document).eval scope = pure (Value.ofJson document).rounded) ∧
    ((Value.ofJson document).rounded.toJson = document ↔ document.FitsWords) :=
  ⟨rfl, Expr.simplify_literal document, fun _ => Expr.eval_literal document,
    Value.toJson_rounded_iff document⟩

end TransitionRules
