/-
TransitionRules/Value/Compare.lean

Equality, order and containment of run-time values.  Numbers are compared in their common form;
two doubles count as equal when they are less than `2 ^ -52` apart, and as neither less nor
greater when one of them is NaN.
-/
import TransitionRules.Pattern.Parser
import TransitionRules.Text.Search
import TransitionRules.Value.Arithmetic

namespace TransitionRules

namespace Numbers

/-- Whether two numbers count as equal. -/
def equal : Numbers → Bool
  | .words a b => a == b
  | .wide a b => a == b
  | .floats a b => (a - b).abs < Binary64.epsilon

/-- Which of two numbers is less. -/
def order : Numbers → Ordering
  | .words a b => compare a.toInt b.toInt
  | .wide a b => compare a b
  | .floats a b => if a < b then .lt else if b < a then .gt else .eq

end Numbers

namespace Value

/-! ### Equality -/

/-- Whether two values that are no lists and no maps count as equal. -/
def equalLeaves : Value → Value → Bool
  | .null, .null => true
  | .bool a, .bool b => a == b
  | .string a, .string b => a == b
  | left, right => (Numbers.of? left right).any Numbers.equal

mutual

/-- Whether two values count as equal: lists by position, maps by name. -/
def equal : Value → Value → Bool
  | .list xs, .list ys => equalItems xs ys
  | .map fs, .map gs => fs.size == gs.size && equalFields fs gs
  | left, right => equalLeaves left right

def equalItems : List Value → List Value → Bool
  | [], [] => true
  | x :: xs, y :: ys => equal x y && equalItems xs ys
  | _, _ => false

def equalFields : {low : Option String} → FieldsAfter Value low → FieldMap Value → Bool
  | _, .nil, _ => true
  | _, .cons name _ value rest, other =>
    (match other.get? name with
      | some found => equal value found
      | none => false) && equalFields rest other

end

/-! ### Order -/

/-- Which of two values is less; only two numbers or two strings have an order. -/
def order? (left right : Value) : Option Ordering :=
  match Numbers.of? left right, left, right with
  | some numbers, _, _ => some numbers.order
  | none, .string a, .string b => some (compare a b)
  | none, _, _ => none

/-- A test of the order of two values. -/
def comparison (op : BinaryOp) (test : Ordering → Bool) (left right : Value) :
    Except RuleError Value :=
  match order? left right with
  | some ordering => .ok (.bool (test ordering))
  | none => .error (refuse op left right)

/-! ### Containment -/

/-- Whether a string has a part or a list an equal item. -/
def contains (left right : Value) : Except RuleError Value :=
  match left, right with
  | .string text, .string part => .ok (.bool (Text.contains text part))
  | .list items, needle => .ok (.bool (items.any fun item => item.equal needle))
  | left, right => .error (refuse .contains left right)

/-- Whether a value is an item of a list, a field name of a map or a part of a string. -/
def isIn (left right : Value) : Except RuleError Value :=
  match left, right with
  | needle, .list items => .ok (.bool (items.any fun item => item.equal needle))
  | .string name, .map fields => .ok (.bool (fields.contains name))
  | .string part, .string text => .ok (.bool (Text.contains text part))
  | left, right => .error (refuse .isIn left right)

/-- A test of two strings. -/
def stringTest (op : BinaryOp) (test : String → String → Bool) (left right : Value) :
    Except RuleError Value :=
  match left, right with
  | .string text, .string part => .ok (.bool (test text part))
  | left, right => .error (refuse op left right)

/-- Whether a search pattern is found in a string. -/
def matchesPattern (left right : Value) : Except RuleError Value :=
  match left, right with
  | .string text, .string source =>
    match Pattern.parse source with
    | .ok pattern => .ok (.bool (pattern.isFound text))
    | .error _ => .error .invalidPattern
  | left, right => .error (refuse .matches left right)

end Value

end TransitionRules
