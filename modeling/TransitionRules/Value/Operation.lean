/-
TransitionRules/Value/Operation.lean

The operators of expressions on run-time values.
-/
import TransitionRules.Value.Compare

namespace TransitionRules

/-- An operator with one operand, applied. -/
def UnaryOp.apply (op : UnaryOp) (operand : Value) : Except RuleError Value :=
  match op with
  | .not => .ok (.bool !operand.truthy)
  | .neg => operand.negate

/-- An operator with two operands, applied to both of them. -/
def BinaryOp.apply (op : BinaryOp) (left right : Value) : Except RuleError Value :=
  match op with
  | .add => left.add right
  | .sub => left.sub right
  | .mul => left.mul right
  | .div => left.div right
  | .mod => left.mod right
  | .eq => .ok (.bool (left.equal right))
  | .ne => .ok (.bool !left.equal right)
  | .lt => Value.comparison .lt Ordering.isLT left right
  | .le => Value.comparison .le Ordering.isLE left right
  | .gt => Value.comparison .gt Ordering.isGT left right
  | .ge => Value.comparison .ge Ordering.isGE left right
  | .and => .ok (.bool (left.truthy && right.truthy))
  | .or => .ok (.bool (left.truthy || right.truthy))
  | .contains => left.contains right
  | .startsWith => Value.stringTest .startsWith Text.startsWith left right
  | .endsWith => Value.stringTest .endsWith Text.endsWith left right
  | .matches => left.matchesPattern right
  | .isIn => left.isIn right

end TransitionRules
