/-
TransitionRules/Proofs/Expr/Evaluation.lean

What an evaluation comes to.  To find the value of an expression in a scope is to find the values of
some of its parts, each in a scope of its own (`Evaluates`): of a conditional the test and one branch,
of a junction the operands up to the one that decides it (`Asked`), of an assignment the patch, the
conditions of the rules on the states that the run asks them about, and the transforms on the objects
that the run applies them to (`Run.Asks`, `Run.Applies`).  Parts that are not evaluated, and rules on
objects that the run does not come to, are left out.

A `Site` is an expression in its position and scope, and what an evaluation comes to in the end is the
closure of `Evaluates`.  Every part that it comes to is a part by `Expr.parts` (`Evaluates.mem_parts`).
-/
import Mathlib.Data.List.FinRange
import Mathlib.Logic.Relation
import TransitionRules.Proofs.Expr.Parts
import TransitionRules.Proofs.Run.Refinement

namespace TransitionRules

/-- Whether the right operand is evaluated after a left one with this value. -/
def BinaryOp.asksRight : BinaryOp → Value → Bool
  | .and, left => left.truthy
  | .or, left => !left.truthy
  | _, _ => true

namespace Expr

/-! ### Assignments -/

variable {environment : Environment}

/-- The rule of a condition and a transform, without a name. -/
def pairRule (environment : Environment) (rule : Expr × Expr) : Rule where
  name := ""
  matcher := rule.1.matcher (rule.1.evalCondition environment)
  transform := rule.2.evalTransform environment

/-- The rule in a place, without a name. -/
def ruleAt (environment : Environment) (rules : List (Expr × Expr)) (place : Fin rules.length) :
    Rule :=
  pairRule environment (rules.get place)

theorem inlineRules_anonymous (position : Nat) (rules : List (Expr × Expr)) :
    (inlineRules position rules environment).map Run.anonymous =
      rules.map (pairRule environment) := by
  induction rules generalizing position with
  | nil => rfl
  | cons rule rules ih =>
    show pairRule environment rule :: (inlineRules (position + 1) rules environment).map _ = _
    rw [ih, List.map_cons]

/-- The names that the rules of an assignment have in its run make no difference. -/
theorem stabilize_inlineRules (rules : List (Expr × Expr)) (limit : Option Nat)
    (before patch : Object) :
    Run.stabilize (inlineRules 0 rules environment) limit before patch =
      Run.stabilize (rules.map (pairRule environment)) limit before patch := by
  rw [← Run.stabilize_anonymous, inlineRules_anonymous]

/-- The object that the patch of an assignment comes to. -/
def evalPatch (patch : Option Expr) (scope : Scope) : Budgeted Object :=
  match patch with
  | none => pure .nil
  | some change => do
    let value ← change.eval scope
    value.toObject "assign patch"

/-- An assignment evaluates its patch and runs its rules. -/
theorem eval_assign (rules : List (Expr × Expr)) (patch : Option Expr) (scope : Scope) :
    (Expr.assign rules patch).eval scope = do
      let changes ← evalPatch patch scope
      let final ← Run.stabilize (rules.map (pairRule scope.environment)) none scope.next changes
      return Value.ofObject final := by
  rw [← funext (stabilize_inlineRules rules none scope.next)]
  cases patch with
  | none => rw [eval, evalPatch, pure_bind]
  | some change =>
    rw [eval, evalPatch, bind_assoc]

/-! ### Sites -/

/-- An expression that stands in a position and is evaluated in a scope. -/
structure Site where
  position : Position
  expression : Expr
  scope : Scope

/-- The operand is among those that the junction with this neutral literal comes to in the scope: all
operands before it leave the junction open. -/
inductive Asked (neutral : Bool) (scope : Scope) : List Expr → Expr → Prop
  | first {operand : Expr} {rest : List Expr} : Asked neutral scope (operand :: rest) operand
  | later {operand inner : Expr} {rest : List Expr} {v : Value}
      (hvalue : (operand.eval scope).Ends (.ok v)) (hopen : v.truthy = neutral)
      (hrest : Asked neutral scope rest inner) : Asked neutral scope (operand :: rest) inner

/-- Finding a value of the first site comes to the second one, by one step. -/
inductive Evaluates : Site → Site → Prop
  | item {position : Position} {items : List Expr} {item : Expr} {scope : Scope}
      (hmem : item ∈ items) : Evaluates ⟨position, .list items, scope⟩ ⟨.value, item, scope⟩
  | entry {position : Position} {entries : List (String × Expr)} {entry : String × Expr}
      {scope : Scope} (hmem : entry ∈ entries) :
      Evaluates ⟨position, .map entries, scope⟩ ⟨.value, entry.2, scope⟩
  | fieldBase {position : Position} {base : Expr} {name : String} {scope : Scope} :
      Evaluates ⟨position, .field base name, scope⟩ ⟨.value, base, scope⟩
  | indexBase {position : Position} {base key : Expr} {scope : Scope} :
      Evaluates ⟨position, .index base key, scope⟩ ⟨.value, base, scope⟩
  | indexKey {position : Position} {base key : Expr} {scope : Scope} :
      Evaluates ⟨position, .index base key, scope⟩ ⟨.value, key, scope⟩
  | operand {position : Position} {op : UnaryOp} {operand : Expr} {scope : Scope} :
      Evaluates ⟨position, .unary op operand, scope⟩ ⟨op.operandPosition, operand, scope⟩
  | left {position : Position} {op : BinaryOp} {left right : Expr} {scope : Scope} :
      Evaluates ⟨position, .binary op left right, scope⟩ ⟨op.operandPosition, left, scope⟩
  | right {position : Position} {op : BinaryOp} {left right : Expr} {scope : Scope} {v : Value}
      (hleft : (left.eval scope).Ends (.ok v)) (hasks : op.asksRight v = true) :
      Evaluates ⟨position, .binary op left right, scope⟩ ⟨op.operandPosition, right, scope⟩
  | test {position : Position} {test yes no : Expr} {scope : Scope} :
      Evaluates ⟨position, .conditional test yes no, scope⟩ ⟨.test, test, scope⟩
  | yes {position : Position} {test yes no : Expr} {scope : Scope} {v : Value}
      (htest : (test.eval scope).Ends (.ok v)) (htruthy : v.truthy = true) :
      Evaluates ⟨position, .conditional test yes no, scope⟩ ⟨position, yes, scope⟩
  | no {position : Position} {test yes no : Expr} {scope : Scope} {v : Value}
      (htest : (test.eval scope).Ends (.ok v)) (hfalsy : v.truthy = false) :
      Evaluates ⟨position, .conditional test yes no, scope⟩ ⟨position, no, scope⟩
  | argument {position : Position} {function : String} {arguments : List Expr} {argument : Expr}
      {scope : Scope} (hmem : argument ∈ arguments) :
      Evaluates ⟨position, .call function arguments, scope⟩ ⟨.value, argument, scope⟩
  | all {position : Position} {operands : List Expr} {operand : Expr} {scope : Scope}
      (hasked : Asked true scope operands operand) :
      Evaluates ⟨position, .all operands, scope⟩ ⟨.test, operand, scope⟩
  | any {position : Position} {operands : List Expr} {operand : Expr} {scope : Scope}
      (hasked : Asked false scope operands operand) :
      Evaluates ⟨position, .any operands, scope⟩ ⟨.test, operand, scope⟩
  | patch {position : Position} {rules : List (Expr × Expr)} {change : Expr} {scope : Scope} :
      Evaluates ⟨position, .assign rules (some change), scope⟩ ⟨.value, change, scope⟩
  | condition {position : Position} {rules : List (Expr × Expr)} {patch : Option Expr}
      {scope : Scope} {changes next : Object} {place : Fin rules.length}
      (hpatch : (evalPatch patch scope).Ends (.ok changes))
      (hasks : Run.Asks (ruleAt scope.environment rules) (List.nodup_finRange _) none scope.next
        changes place next) :
      Evaluates ⟨position, .assign rules patch, scope⟩
        ⟨.test, (rules.get place).1, .condition ⟨scope.next, next⟩ scope.environment⟩
  | transform {position : Position} {rules : List (Expr × Expr)} {patch : Option Expr}
      {scope : Scope} {changes input : Object} {place : Fin rules.length}
      (hpatch : (evalPatch patch scope).Ends (.ok changes))
      (happlies : Run.Applies (ruleAt scope.environment rules) (List.nodup_finRange _) none
        scope.next changes place input) :
      Evaluates ⟨position, .assign rules patch, scope⟩
        ⟨.value, (rules.get place).2, .transform input scope.environment⟩

theorem Asked.mem {neutral : Bool} {scope : Scope} {operands : List Expr} {operand : Expr}
    (h : Asked neutral scope operands operand) : operand ∈ operands := by
  induction h with
  | first => exact List.mem_cons_self
  | later _ _ _ ih => exact List.mem_cons_of_mem _ ih

/-- What an evaluation comes to by one step is a part of the expression. -/
theorem Evaluates.mem_parts {site inner : Site} (h : Evaluates site inner) :
    ∃ part ∈ site.expression.parts site.position,
      part.position = inner.position ∧ part.expression = inner.expression := by
  cases h with
  | item hmem | argument hmem => exact ⟨_, List.mem_map_of_mem hmem, rfl, rfl⟩
  | entry hmem => exact ⟨_, List.mem_map_of_mem hmem, rfl, rfl⟩
  | fieldBase | indexBase | operand | left | test => exact ⟨_, .head _, rfl, rfl⟩
  | indexKey | right _ _ | yes _ _ => exact ⟨_, .tail _ (.head _), rfl, rfl⟩
  | no _ _ => exact ⟨_, .tail _ (.tail _ (.head _)), rfl, rfl⟩
  | all hasked | any hasked => exact ⟨_, List.mem_map_of_mem hasked.mem, rfl, rfl⟩
  | patch => exact ⟨_, patch_mem_parts rfl, rfl, rfl⟩
  | @condition _ rules _ _ _ _ place _ _ =>
    exact ⟨_, condition_mem_parts (rules.get_mem place), rfl, rfl⟩
  | @transform _ rules _ _ _ _ place _ _ =>
    exact ⟨_, transform_mem_parts (rules.get_mem place), rfl, rfl⟩

end Expr

end TransitionRules
