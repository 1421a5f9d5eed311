/-
TransitionRules/Expr/Eval.lean

Evaluating expressions.  An expression that runs rules of its own may go on for ever, so the
result is `Budgeted`.  The rules of such an expression see the outer `next` as their `before`, and
their transforms see no `before` at all.
-/
import TransitionRules.Expr.Basic
import TransitionRules.Expr.Builtin
import TransitionRules.Run.Stabilize

namespace TransitionRules

namespace Expr

/-- The matcher of a condition: a literal truth value is constant. -/
def matcher (condition : Expr) (test : Context → Budgeted Bool) : Matcher :=
  match condition with
  | .bool fires => .constant fires
  | _ => .predicate test

/-- Calls a function; an added function hides the one of its name that every expression has. -/
def callFunction (name : String) (scope : Scope) (arguments : List Value) :
    Except RuleError Value :=
  match scope.environment.get? name with
  | some extension => extension arguments
  | none =>
    match Builtin.ofName? name with
    | some function => function.call scope arguments
    | none => .error (.undefinedFunction name)

mutual

/-- The value of an expression in a scope. -/
def eval : Expr → Scope → Budgeted Value
  | .null, _ => pure .null
  | .bool b, _ => pure (.bool b)
  | .int n, _ => pure (.int n)
  | .float x, _ => pure (.float x)
  | .string s, _ => pure (.string s)
  | .list items, scope => return .list (← evalItems items scope)
  | .map entries, scope => return .map (← evalEntries entries .nil scope)
  | .ident name, scope => scope.variableValue name
  | .field base name, scope => do
    let base ← eval base scope
    base.field name
  | .index base key, scope => do
    let base ← eval base scope
    let key ← eval key scope
    base.item key
  | .unary op operand, scope => do
    let operand ← eval operand scope
    op.apply operand
  | .binary .and left right, scope => do
    let left ← eval left scope
    if left.truthy then
      let right ← eval right scope
      return .bool right.truthy
    else return .bool false
  | .binary .or left right, scope => do
    let left ← eval left scope
    if left.truthy then return .bool true
    else
      let right ← eval right scope
      return .bool right.truthy
  | .binary op left right, scope => do
    let left ← eval left scope
    let right ← eval right scope
    op.apply left right
  | .conditional test yes no, scope => do
    let test ← eval test scope
    if test.truthy then eval yes scope else eval no scope
  | .call function arguments, scope => do
    let arguments ← evalItems arguments scope
    callFunction function scope arguments
  | .all operands, scope => return .bool (← evalAll operands scope)
  | .any operands, scope => return .bool (← evalAny operands scope)
  | .assign rules none, scope => do
    let final ← Run.stabilize (inlineRules 0 rules scope.environment) none scope.next .nil
    return Value.ofObject final
  | .assign rules (some patch), scope => do
    let patch ← eval patch scope
    let patch ← patch.toObject "assign patch"
    let final ← Run.stabilize (inlineRules 0 rules scope.environment) none scope.next patch
    return Value.ofObject final

def evalItems : List Expr → Scope → Budgeted (List Value)
  | [], _ => pure []
  | item :: rest, scope => do
    let item ← eval item scope
    let rest ← evalItems rest scope
    return item :: rest

def evalEntries : List (String × Expr) → FieldMap Value → Scope → Budgeted (FieldMap Value)
  | [], done, _ => pure done
  | (key, value) :: rest, done, scope => do
    let value ← eval value scope
    evalEntries rest (done.insert key value) scope

/-- Whether all operands hold. -/
def evalAll : List Expr → Scope → Budgeted Bool
  | [], _ => pure true
  | operand :: rest, scope => do
    let value ← eval operand scope
    if value.truthy then evalAll rest scope else return false

/-- Whether some operand holds. -/
def evalAny : List Expr → Scope → Budgeted Bool
  | [], _ => pure false
  | operand :: rest, scope => do
    let value ← eval operand scope
    if value.truthy then return true else evalAny rest scope

/-- The rules inside an expression, named by their position. -/
def inlineRules (position : Nat) : List (Expr × Expr) → Environment → List Rule
  | [], _ => []
  | (condition, transform) :: rest, environment =>
    { name := "inline-" ++ toString position
      matcher := matcher condition fun context => do
        let value ← eval condition (.condition context environment)
        return value.truthy
      transform := fun object => do
        let value ← eval transform (.transform object environment)
        value.toObject "transform" } ::
      inlineRules (position + 1) rest environment

end

/-- Whether a condition holds in a context. -/
def evalCondition (condition : Expr) (environment : Environment) (context : Context) :
    Budgeted Bool := do
  let value ← condition.eval (.condition context environment)
  return value.truthy

/-- The object that a transform makes of an object. -/
def evalTransform (transform : Expr) (environment : Environment) (object : Object) :
    Budgeted Object := do
  let value ← transform.eval (.transform object environment)
  value.toObject "transform"

end Expr

end TransitionRules
