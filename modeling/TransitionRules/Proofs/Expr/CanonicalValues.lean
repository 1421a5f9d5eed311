/-
TransitionRules/Proofs/Expr/CanonicalValues.lean

Evaluation gives canonical values.  Every operator and every function computes an integer from
integers by narrowing the exact result, or takes it from a value that is canonical already; and what
an assignment gives is read from a document.  So the values of an expression are canonical if those of
the added functions are (`eval_gives_canonical`).

Main result: `values_are_images_of_documents`.
-/
import TransitionRules.Proofs.Expr.Folding
import TransitionRules.Proofs.Steps
import TransitionRules.Proofs.Value.Canonical

namespace TransitionRules

open Budgeted (gives_done_iff gives_pure_iff gives_bind_of_next)
open Value (Canonical canonical_map_iff canonical_list_iff)

variable {scope : Scope} {name : String} {arguments : List Value} {result : Value}

/-- The added functions return canonical values, if they are given such. -/
def Environment.ReturnsCanonical (environment : Environment) : Prop :=
  ∀ name extension, environment.get? name = some extension → ∀ arguments result,
    (∀ argument ∈ arguments, argument.Canonical) → extension arguments = .ok result →
    result.Canonical

/-! ### Operators -/

theorem UnaryOp.canonical_apply {op : UnaryOp} {operand : Value}
    (h : op.apply operand = .ok result) : result.Canonical := by
  cases op with
  | not =>
    cases h
    exact Value.canonical_bool _
  | neg => exact Value.canonical_negate h

theorem BinaryOp.canonical_apply {op : BinaryOp} {left right : Value}
    (h : op.apply left right = .ok result) : result.Canonical := by
  rcases htest : op.isTest with - | -
  · cases op with
    | add => exact Value.canonical_add h
    | sub => exact Value.canonical_arithmetic h
    | mul => exact Value.canonical_arithmetic h
    | div => exact Value.canonical_div h
    | mod => exact Value.canonical_mod h
    | _ => cases htest
  · obtain ⟨b, rfl⟩ := BinaryOp.apply_eq_bool htest h
    exact Value.canonical_bool b

/-! ### Functions -/

theorem Scope.canonical_variableValue (h : scope.variableValue name = .ok result) :
    result.Canonical := by
  unfold Scope.variableValue at h
  split at h
  · cases h
    exact Value.canonical_ofJson (.object scope.next)
  · split at h
    · next before _ =>
      cases h
      exact Value.canonical_ofJson (.object before)
    · cases h
  · cases h

namespace Builtin

variable {function : Builtin} {object : Option Value} {fields : FieldMap Value}

theorem canonical_readFields {base : Value} {names : List String} (hbase : base.Canonical)
    (h : readFields base names = .ok result) : result.Canonical := by
  induction names generalizing base with
  | nil =>
    cases h
    exact hbase
  | cons name rest ih =>
    obtain ⟨next, hnext, h⟩ := bind_eq_ok.mp h
    exact ih (hbase.field hnext) h

theorem canonical_atPath {path : String} (h : atPath scope path = .ok result) :
    result.Canonical := by
  unfold atPath at h
  split at h
  · cases h
  · split at h
    · cases h
    · obtain ⟨base, hbase, h⟩ := bind_eq_ok.mp h
      exact canonical_readFields (Scope.canonical_variableValue hbase) h

/-- The fields to edit are those of a canonical value. -/
theorem canonical_target (hobject : ∀ value ∈ object, value.Canonical)
    (h : target function scope object = .ok fields) : Canonical (.map fields) := by
  unfold target at h
  split at h
  · cases h
    exact Value.canonical_ofJson (.object scope.next)
  · cases h
    exact hobject _ rfl
  · cases h

theorem canonical_removeField {field : Value} (hobject : ∀ value ∈ object, value.Canonical)
    (h : removeField scope field object = .ok result) : result.Canonical := by
  obtain ⟨name, -, h⟩ := bind_eq_ok.mp h
  obtain ⟨fields, hfields, h⟩ := bind_eq_ok.mp h
  cases h
  exact Value.canonical_erase (canonical_target hobject hfields) name

theorem canonical_setField {field value : Value} (hvalue : value.Canonical)
    (hobject : ∀ value ∈ object, value.Canonical)
    (h : setField scope field value object = .ok result) : result.Canonical := by
  obtain ⟨name, -, h⟩ := bind_eq_ok.mp h
  obtain ⟨fields, hfields, h⟩ := bind_eq_ok.mp h
  cases h
  exact Value.canonical_insert (canonical_target hobject hfields) name hvalue

theorem canonical_mergeFields {changes : Value} (hchanges : changes.Canonical)
    (hobject : ∀ value ∈ object, value.Canonical)
    (h : mergeFields scope changes object = .ok result) : result.Canonical := by
  unfold mergeFields at h
  split at h
  · obtain ⟨fields, hfields, h⟩ := bind_eq_ok.mp h
    cases h
    exact Value.canonical_overlay (canonical_target hobject hfields) hchanges
  · cases h

theorem canonical_length {value : Value} (h : length value = .ok result) : result.Canonical := by
  unfold length at h
  split at h <;> cases h <;> exact Value.canonical_int _

theorem canonical_ofString {f : String → String} {value : Value}
    (h : ofString function f value = .ok result) : result.Canonical := by
  unfold ofString at h
  split at h <;> cases h
  exact Value.canonical_string _

theorem canonical_fieldNames {value : Value} (h : fieldNames value = .ok result) :
    result.Canonical := by
  unfold fieldNames at h
  split at h <;> cases h
  rw [canonical_list_iff, List.forall_mem_map]
  exact fun name _ => Value.canonical_string name

/-- What a function makes of canonical arguments is canonical. -/
theorem canonical_call (harguments : ∀ argument ∈ arguments, argument.Canonical)
    (h : function.call scope arguments = .ok result) : result.Canonical := by
  have hnone : ∀ value ∈ (none : Option Value), value.Canonical := nofun
  have hsome : ∀ {object : Value}, object.Canonical → ∀ value ∈ some object, value.Canonical := by
    intro object hobject value hvalue
    cases hvalue
    exact hobject
  unfold call at h
  split at h
  · cases h
    exact Value.canonical_bool _
  · exact canonical_length h
  · exact canonical_ofString h
  · exact canonical_ofString h
  · exact canonical_fieldNames h
  · cases h
    exact Value.canonical_string _
  · obtain ⟨path, -, h⟩ := bind_eq_ok.mp h
    exact canonical_atPath h
  · exact canonical_removeField hnone h
  · simp only [List.forall_mem_cons] at harguments
    exact canonical_removeField (hsome harguments.2.1) h
  · simp only [List.forall_mem_cons] at harguments
    exact canonical_setField harguments.2.1 hnone h
  · simp only [List.forall_mem_cons] at harguments
    exact canonical_setField harguments.2.1 (hsome harguments.2.2.1) h
  · simp only [List.forall_mem_cons] at harguments
    exact canonical_mergeFields harguments.1 hnone h
  · simp only [List.forall_mem_cons] at harguments
    exact canonical_mergeFields harguments.1 (hsome harguments.2.1) h
  · cases h

end Builtin

namespace Expr

theorem canonical_callFunction (hscope : scope.environment.ReturnsCanonical)
    (harguments : ∀ argument ∈ arguments, argument.Canonical)
    (h : callFunction name scope arguments = .ok result) : result.Canonical := by
  unfold callFunction at h
  split at h
  · next extension hextension => exact hscope name extension hextension _ _ harguments h
  · split at h
    · exact Builtin.canonical_call harguments h
    · cases h

/-! ### Expressions -/

theorem evalItems_gives_canonical {items : List Expr}
    (h : ∀ item ∈ items, (item.eval scope).Gives Canonical) :
    (evalItems items scope).Gives fun values => ∀ value ∈ values, value.Canonical := by
  induction items with
  | nil => exact gives_pure_iff.mpr (List.forall_mem_nil _)
  | cons item rest ih =>
    rw [List.forall_mem_cons] at h
    refine h.1.bind fun value hvalue => (ih h.2).bind fun values hvalues => ?_
    exact gives_pure_iff.mpr (List.forall_mem_cons.mpr ⟨hvalue, hvalues⟩)

theorem evalEntries_gives_canonical {entries : List (String × Expr)} {done : FieldMap Value}
    (h : ∀ entry ∈ entries, (entry.2.eval scope).Gives Canonical) (hdone : Canonical (.map done)) :
    (evalEntries entries done scope).Gives fun fields => Canonical (.map fields) := by
  induction entries generalizing done with
  | nil => exact gives_pure_iff.mpr hdone
  | cons entry rest ih =>
    rw [List.forall_mem_cons] at h
    refine h.1.bind fun value hvalue => ?_
    exact ih h.2 (Value.canonical_insert hdone entry.1 hvalue)

/-- **Evaluation gives canonical values**, if the added functions do. -/
theorem eval_gives_canonical (hscope : scope.environment.ReturnsCanonical) (e : Expr) :
    (e.eval scope).Gives Canonical := by
  -- what stands inside an assignment is evaluated in other scopes, and becomes a document
  have hdocument : ∀ final : Object, (Value.ofObject final).Canonical := fun final =>
    Value.canonical_ofJson (.object final)
  induction e with
  | null => exact gives_pure_iff.mpr Value.canonical_null
  | bool b => exact gives_pure_iff.mpr (Value.canonical_bool b)
  | int n => exact gives_pure_iff.mpr (Value.canonical_int n)
  | float x => exact gives_pure_iff.mpr (Value.canonical_float x)
  | string s => exact gives_pure_iff.mpr (Value.canonical_string s)
  | list items ih =>
    refine (evalItems_gives_canonical ih).bind fun values hvalues => ?_
    exact gives_pure_iff.mpr (canonical_list_iff.mpr hvalues)
  | map entries ih =>
    have hnil : Canonical (.map .nil) := canonical_map_iff.mpr fun _ _ h => by cases h
    refine (evalEntries_gives_canonical ih hnil).bind fun fields hfields => ?_
    exact gives_pure_iff.mpr hfields
  | ident name => exact gives_done_iff.mpr fun _ => Scope.canonical_variableValue
  | field base name ih =>
    exact ih.bind fun value hvalue => gives_done_iff.mpr fun _ => hvalue.field
  | index base key ihbase _ =>
    refine ihbase.bind fun value hvalue => gives_bind_of_next fun place => ?_
    exact gives_done_iff.mpr fun _ => hvalue.item
  | unary op operand _ =>
    exact gives_bind_of_next fun _ => gives_done_iff.mpr fun _ => UnaryOp.canonical_apply
  | binary op left right _ _ =>
    rcases hop : op.operandPosition with - | -
    · -- a junction has no values but truth values
      have hbool : (Expr.binary op left right).YieldsBool scope :=
        yieldsBool_binary (by rcases eq_and_or_or hop with rfl | rfl <;> rfl) left right scope
      intro v hv
      obtain ⟨b, rfl⟩ := hbool v hv
      exact Value.canonical_bool b
    · rw [eval_binary hop]
      refine gives_bind_of_next fun _ => gives_bind_of_next fun _ => ?_
      exact gives_done_iff.mpr fun _ => BinaryOp.canonical_apply
  | conditional test yes no _ ihyes ihno =>
    refine gives_bind_of_next fun value => ?_
    split
    · exact ihyes
    · exact ihno
  | call function arguments ih =>
    refine (evalItems_gives_canonical ih).bind fun values hvalues => ?_
    exact gives_done_iff.mpr fun _ => canonical_callFunction hscope hvalues
  | all operands _ | any operands _ =>
    exact gives_bind_of_next fun b => gives_pure_iff.mpr (Value.canonical_bool b)
  | assign rules patch _ _ =>
    cases patch with
    | none => exact gives_bind_of_next fun final => gives_pure_iff.mpr (hdocument final)
    | some patch =>
      refine gives_bind_of_next fun _ => gives_bind_of_next fun _ => ?_
      exact gives_bind_of_next fun final => gives_pure_iff.mpr (hdocument final)

/-- **Values are images of documents.**  A document comes back from being a value; evaluation gives
canonical values if the added functions do; and a canonical value whose doubles are finite comes back
from being a document. -/
theorem values_are_images_of_documents :
    (∀ document : Json, (Value.ofJson document).toJson = document) ∧
    (∀ (e : Expr) (scope : Scope), scope.environment.ReturnsCanonical →
      ∀ value, (e.eval scope).Ends (.ok value) → value.Canonical) ∧
    ∀ value : Value, value.Canonical → value.HasFiniteFloats →
      Value.ofJson value.toJson = value :=
  ⟨Value.toJson_ofJson, fun e _ hscope => eval_gives_canonical hscope e, Value.ofJson_toJson⟩

/-- Functions to call with no arguments, one of which gives the largest integer. -/
def largest : Environment :=
  FieldsAfter.nil.insert "largest" fun _ => .ok (.uint 0xFFFFFFFFFFFFFFFF)

theorem largest_returnsCanonical : largest.ReturnsCanonical := by
  intro name extension hextension arguments result _ hresult
  rw [largest, FieldsAfter.get?_insert] at hextension
  split at hextension
  · cases hextension
    cases hresult
    exact Value.canonical_uint_iff.mpr (by decide)
  · cases hextension

/-- One less than the largest integer is above the signed ones still. -/
theorem values_are_images_of_documents_largest :
    let scope : Scope := ⟨none, .nil, largest⟩
    let value : Value := .uint 0xFFFFFFFFFFFFFFFE
    largest.ReturnsCanonical ∧
      ((Expr.binary .sub (.call "largest" []) (.int 1)).eval scope).Ends (.ok value) ∧
      value.Canonical ∧ value.HasFiniteFloats ∧ Value.ofJson value.toJson = value := by
  obtain ⟨-, heval, hback⟩ := values_are_images_of_documents
  intro scope value
  have hvalue : ((Expr.binary .sub (.call "largest" []) (.int 1)).eval scope).Ends (.ok value) :=
    ⟨0, rfl⟩
  have hcanonical := heval _ scope largest_returnsCanonical value hvalue
  have hfinite : (Value.uint 0xFFFFFFFFFFFFFFFE).HasFiniteFloats := fun _ h => nomatch h
  exact ⟨largest_returnsCanonical, hvalue, hcanonical, hfinite, hback value hcanonical hfinite⟩

end Expr

end TransitionRules
