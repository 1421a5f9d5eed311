/-
TransitionRules/Proofs/Expr/Edits.lean

The calls of `remove`, `set` and `merge` as edits.  An action edits the object itself.  A call makes a
value of the whole object, edits that, and makes an object of it again.  The two come to the same:
whatever the edit does not touch comes back as it was, and the edit commutes with the way back.

A call without an object and the same call with `next` as its last argument are one edit (`Edits`), and
both are read off the values of the arguments (`edits_of_call`).

Main result: `edits_of_builtins`.
-/
import TransitionRules.Expr.Eval
import TransitionRules.Proofs.Budgeted
import TransitionRules.Proofs.Rule.ActionFields
import TransitionRules.Proofs.Value.Fields

namespace TransitionRules.Expr

/-! ### Calls -/

theorem ofName?_name (function : Builtin) : Builtin.ofName? function.name = some function := by
  cases function <;> rfl

variable {environment : Environment} {object : Object} {scope : Scope}
variable {arguments more : List Expr} {values others : List Value}

theorem evalItems_append (h : (evalItems arguments scope).Ends (.ok values))
    (hmore : (evalItems more scope).Ends (.ok others)) :
    (evalItems (arguments ++ more) scope).Ends (.ok (values ++ others)) := by
  induction arguments generalizing values with
  | nil =>
    cases Budgeted.ends_pure_iff.mp h
    exact hmore
  | cons argument rest ih =>
    obtain ⟨value, hvalue, h⟩ := Budgeted.ends_bind_ok_iff.mp h
    obtain ⟨later, hlater, h⟩ := Budgeted.ends_bind_ok_iff.mp h
    cases Budgeted.ends_pure_iff.mp h
    refine Budgeted.ends_bind_ok_iff.mpr ⟨value, hvalue, ?_⟩
    exact Budgeted.ends_bind_ok_iff.mpr ⟨_, ih hlater, Budgeted.ends_pure_iff.mpr rfl⟩

/-- One argument and its value. -/
theorem evalItems_singleton {argument : Expr} {value : Value}
    (h : (argument.eval scope).Ends (.ok value)) :
    (evalItems [argument] scope).Ends (.ok [value]) := by
  refine Budgeted.ends_bind_ok_iff.mpr ⟨value, h, ?_⟩
  exact Budgeted.ends_bind_ok_iff.mpr
    ⟨[], Budgeted.ends_pure_iff.mpr rfl, Budgeted.ends_pure_iff.mpr rfl⟩

/-- A call, as a transform, is the function that every expression has, applied to the values of the
arguments, unless another function hides it. -/
theorem evalTransform_call {function : Builtin} (hunbound : environment.get? function.name = none)
    (harguments : (evalItems arguments (.transform object environment)).Ends (.ok values)) :
    ((Expr.call function.name arguments).evalTransform environment object).Ends
      (function.call (.transform object environment) values >>= Value.toObject "transform") := by
  have hcall : callFunction function.name (.transform object environment) values =
      function.call (.transform object environment) values := by
    rw [callFunction, Scope.transform, hunbound, ofName?_name]
  rw [evalTransform, eval, bind_assoc]
  apply Budgeted.ends_bind_iff.mpr
  refine .inr ⟨values, harguments, ?_⟩
  rw [hcall]
  -- what the function gives is given at once, an error included
  generalize function.call (.transform object environment) values = result
  rcases result with e | value
  · exact Budgeted.ends_bind_iff.mpr (.inl ⟨e, Budgeted.ends_fail_iff.mpr rfl, rfl⟩)
  · exact Budgeted.ends_bind_iff.mpr (.inr ⟨value, Budgeted.ends_pure_iff.mpr rfl,
      Budgeted.ends_done_iff.mpr rfl⟩)

/-! ### Edits -/

/-- As a transform of the object, a call has this outcome, whether or not `next` is its last argument.
If the outcome is an object, it differs from the given one in the named fields alone. -/
structure Edits (environment : Environment) (object : Object) (function : String)
    (arguments : List Expr) (named : List String) (outcome : Outcome Object) : Prop where
  implicit : ((Expr.call function arguments).evalTransform environment object).Ends outcome
  explicit : ((Expr.call function (arguments ++ [.ident "next"])).evalTransform environment
    object).Ends outcome
  frame : ∀ result, outcome = .ok result → ∀ key ∉ named, result.get? key = object.get? key

/-- An edit, read off the values of the arguments. -/
theorem edits_of_call (function : Builtin) {named : List String} {outcome : Outcome Object}
    (hunbound : environment.get? function.name = none)
    (harguments : (evalItems arguments (.transform object environment)).Ends (.ok values))
    (hexplicit : function.call (.transform object environment) (values ++ [.ofObject object]) =
      function.call (.transform object environment) values)
    (houtcome : (function.call (.transform object environment) values >>=
      Value.toObject "transform") = outcome)
    (hframe : ∀ result, outcome = .ok result → ∀ key ∉ named, result.get? key = object.get? key) :
    Edits environment object function.name arguments named outcome where
  implicit := houtcome ▸ evalTransform_call hunbound harguments
  explicit := by
    have hnext : (evalItems [.ident "next"] (.transform object environment)).Ends
        (.ok [.ofObject object]) := evalItems_singleton (Budgeted.ends_pure_iff.mpr rfl)
    rw [← houtcome, ← hexplicit]
    exact evalTransform_call hunbound (evalItems_append harguments hnext)
  frame := hframe

/-- Edits of an object by an action that names these fields. -/
theorem frame_apply (action : Action) :
    ∀ result, (.ok (action.apply object) : Outcome Object) = .ok result →
      ∀ key ∉ action.fields, result.get? key = object.get? key := by
  intro result hresult key hkey
  cases hresult
  rw [Action.get?_apply, Action.applyAt_of_notMem hkey]

theorem edits_remove (hunbound : environment.get? "remove" = none) (field : String) :
    Edits environment object "remove" [.string field] [field]
      (.ok ((Action.remove field).apply object)) := by
  have hfield : (evalItems [.string field] (.transform object environment)).Ends
      (.ok [.string field]) := evalItems_singleton (Budgeted.ends_pure_iff.mpr rfl)
  apply edits_of_call .remove hunbound hfield rfl _ (frame_apply (.remove field))
  show Except.ok (Value.toJsonFields ((Value.ofJsonFields object).erase field)) = _
  rw [Value.toJsonFields_erase, Value.toJsonFields_ofJsonFields]
  rfl

theorem edits_set (hunbound : environment.get? "set" = none) (field : String) {e : Expr}
    {value : Value} (he : (e.eval (.transform object environment)).Ends (.ok value)) :
    Edits environment object "set" [.string field, e] [field]
      (.ok ((Action.set field value.toJson).apply object)) := by
  have hfield : (evalItems [.string field] (.transform object environment)).Ends
      (.ok [.string field]) := evalItems_singleton (Budgeted.ends_pure_iff.mpr rfl)
  have harguments := evalItems_append hfield (evalItems_singleton he)
  apply edits_of_call .set hunbound harguments rfl _
    (frame_apply (.set field value.toJson))
  show Except.ok (Value.toJsonFields ((Value.ofJsonFields object).insert field value)) = _
  rw [Value.toJsonFields_insert, Value.toJsonFields_ofJsonFields]
  rfl

theorem edits_merge (hunbound : environment.get? "merge" = none) {e : Expr}
    {changes : FieldMap Value}
    (he : (e.eval (.transform object environment)).Ends (.ok (.map changes))) :
    Edits environment object "merge" [e] changes.names
      (.ok (object.overlay (Value.toJsonFields changes))) := by
  apply edits_of_call .merge hunbound (evalItems_singleton he) rfl
  · show Except.ok (Value.toJsonFields ((Value.ofJsonFields object).overlay changes)) = _
    rw [Value.toJsonFields_overlay, Value.toJsonFields_ofJsonFields]
  · intro result hresult key hkey
    cases hresult
    have hmissing : changes.get? key = none := not_not.mp (FieldsAfter.mem_names_iff.not.mp hkey)
    rw [FieldsAfter.get?_overlay, Value.get?_toJsonFields, hmissing]
    rfl

/-- What is not a map cannot be merged. -/
theorem edits_merge_refused (hunbound : environment.get? "merge" = none) {e : Expr} {value : Value}
    (he : (e.eval (.transform object environment)).Ends (.ok value)) (hkind : value.kind ≠ .map) :
    Edits environment object "merge" [e] []
      (.error (.type (.argument "merge" .changes value.kind))) := by
  apply edits_of_call .merge hunbound (evalItems_singleton he)
  · cases value <;> rfl
  · cases value with
    | map fields => exact absurd rfl hkind
    | _ => rfl
  · intro result hresult
    cases hresult

/-- **Calls and actions are the same edits.**  Let no added function hide `remove`, `set` or `merge`,
and let an expression have a value in the scope of a transform.  Then, as transforms of the object,
`remove` of a field and `set` of a field to the expression do what the actions do that remove the field
and set it to the value, and `merge` of the expression lays the value over the object if it is a map
and is refused if it is not.  With `next` as the last argument they do the same, and they keep all
other fields of the object as they are. -/
theorem edits_of_builtins (environment : Environment) (object : Object)
    (hunbound : ∀ name ∈ ["remove", "set", "merge"], environment.get? name = none)
    (field : String) {e : Expr} {value : Value}
    (he : (e.eval (.transform object environment)).Ends (.ok value)) :
    Edits environment object "remove" [.string field] [field]
      (.ok ((Action.remove field).apply object)) ∧
    Edits environment object "set" [.string field, e] [field]
      (.ok ((Action.set field value.toJson).apply object)) ∧
    (∀ changes, value = .map changes → Edits environment object "merge" [e] changes.names
      (.ok (object.overlay (Value.toJsonFields changes)))) ∧
    (value.kind ≠ .map → Edits environment object "merge" [e] []
      (.error (.type (.argument "merge" .changes value.kind)))) := by
  obtain ⟨hremove, hset, hmerge⟩ : environment.get? "remove" = none ∧
      environment.get? "set" = none ∧ environment.get? "merge" = none := by
    simpa using hunbound
  refine ⟨edits_remove hremove field, edits_set hset field he, ?_, edits_merge_refused hmerge he⟩
  rintro changes rfl
  exact edits_merge hmerge he

/-- An object with the least integer that no signed word holds, and a double. -/
def sample : Object :=
  (FieldsAfter.nil.insert "count" (.number (.int 0x8000000000000000 (by decide) (by decide)))).insert
    "ratio" (.number (.float 1.5 (by decide)))

/-- Both numbers come through all three edits, and an integer is not merged. -/
theorem edits_of_builtins_sample :
    let e : Expr := .map [("note", .string "new")]
    let changes : FieldMap Value := FieldsAfter.nil.insert "note" (.string "new")
    (∀ name ∈ ["remove", "set", "merge"], (FieldsAfter.nil : Environment).get? name = none) ∧
      (e.eval (.transform sample .nil)).Ends (.ok (.map changes)) ∧
      Edits .nil sample "remove" [.string "note"] ["note"] (.ok sample) ∧
      Edits .nil sample "set" [.string "note", e] ["note"]
        (.ok (sample.insert "note" (.object (FieldsAfter.nil.insert "note" (.string "new"))))) ∧
      Edits .nil sample "merge" [e] ["note"] (.ok (sample.insert "note" (.string "new"))) ∧
      Edits .nil sample "merge" [.int 1] [] (.error (.type (.argument "merge" .changes .int))) := by
  intro e changes
  have hunbound : ∀ name ∈ ["remove", "set", "merge"],
      (FieldsAfter.nil : Environment).get? name = none := fun _ _ => rfl
  have he : (e.eval (.transform sample .nil)).Ends (.ok (.map changes)) := ⟨0, rfl⟩
  have hint : ((Expr.int 1).eval (.transform sample .nil)).Ends (.ok (.int 1)) := ⟨0, rfl⟩
  obtain ⟨hremove, hset, hmerge, -⟩ := edits_of_builtins .nil sample hunbound "note" he
  obtain ⟨-, -, -, hrefused⟩ := edits_of_builtins .nil sample hunbound "note" hint
  exact ⟨hunbound, he, hremove, hset, hmerge changes rfl, hrefused (by decide)⟩

end TransitionRules.Expr
