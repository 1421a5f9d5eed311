/-
TransitionRules/Expr/Simplify.lean

Simplifying an expression before it is evaluated, from the leaves up.  Operators on literals are
computed, a conditional on a literal test becomes one of its branches, two negations cancel, and
junctions lose their literal operands.

A division whose quotient does not fit a word stops the whole simplification (`FoldAbort`), where
evaluation would wrap around.
-/
import TransitionRules.Expr.Basic
import TransitionRules.Text.Search

namespace TransitionRules

/-- Why a literal division cannot be computed. -/
inductive FoldAbort where
  | quotientOverflow
  | remainderOverflow
  deriving DecidableEq, Repr

/-- What is wrong, in words. -/
def FoldAbort.message : FoldAbort → String
  | .quotientOverflow => "attempt to divide with overflow"
  | .remainderOverflow => "attempt to calculate the remainder with overflow"

namespace Expr

/-! ### Operators on literals -/

/-- Whether the quotient of two words does not fit a word. -/
def quotientOverflows (a b : Int64) : Bool := a = Int64.minValue && b = -1

/-- An operator on two words, if it is computed. -/
def foldWords? (op : BinaryOp) (a b : Int64) : Except FoldAbort (Option Expr) :=
  match op with
  | .add => .ok (some (.int (a + b)))
  | .sub => .ok (some (.int (a - b)))
  | .mul => .ok (some (.int (a * b)))
  | .div =>
    if b = 0 then .ok none
    else if quotientOverflows a b then .error .quotientOverflow
    else .ok (some (.int (a / b)))
  | .mod =>
    if b = 0 then .ok none
    else if quotientOverflows a b then .error .remainderOverflow
    else .ok (some (.int (a % b)))
  | .eq => .ok (some (.bool (a == b)))
  | .ne => .ok (some (.bool (a != b)))
  | .lt => .ok (some (.bool (a < b)))
  | .le => .ok (some (.bool (a ≤ b)))
  | .gt => .ok (some (.bool (b < a)))
  | .ge => .ok (some (.bool (b ≤ a)))
  | _ => .ok none

/-- An operator on two doubles, if it is computed. -/
def foldFloats? (op : BinaryOp) (a b : Float) : Option Expr :=
  match op with
  | .add => some (.float (a + b))
  | .sub => some (.float (a - b))
  | .mul => some (.float (a * b))
  | .div => if b == 0.0 then none else some (.float (a / b))
  | _ => none

/-- An operator on two strings, if it is computed. -/
def foldStrings? (op : BinaryOp) (a b : String) : Option Expr :=
  match op with
  | .eq => some (.bool (a == b))
  | .ne => some (.bool (a != b))
  | .contains => some (.bool (Text.contains a b))
  | .startsWith => some (.bool (Text.startsWith a b))
  | .endsWith => some (.bool (Text.endsWith a b))
  | _ => none

/-- A logical operator whose left operand is a literal, if it is computed. -/
def foldLogic? (op : BinaryOp) (left : Bool) (right : Expr) : Option Expr :=
  match op, left, right with
  | .and, false, _ => some (.bool false)
  | .or, true, _ => some (.bool true)
  | .and, true, .bool b => some (.bool b)
  | .or, false, .bool b => some (.bool b)
  | _, _, _ => none

/-- An operator with two operands, computed if possible. -/
def foldBinary (op : BinaryOp) (left right : Expr) : Except FoldAbort Expr :=
  match left, right with
  | .int a, .int b => return (← foldWords? op a b).getD (.binary op left right)
  | .float a, .float b => .ok ((foldFloats? op a b).getD (.binary op left right))
  | .string a, .string b => .ok ((foldStrings? op a b).getD (.binary op left right))
  | .bool b, right => .ok ((foldLogic? op b right).getD (.binary op left right))
  | left, right => .ok (.binary op left right)

/-- An operator with one operand, computed if possible. -/
def foldUnary (op : UnaryOp) (operand : Expr) : Expr :=
  match op, operand with
  | .not, .bool b => .bool !b
  | .not, .unary .not inner => inner
  | .neg, .int n => .int (-n)
  | .neg, .float x => .float (-x)
  | op, operand => .unary op operand

/-! ### Branches and junctions -/

/-- A conditional, decided if its test is a literal. -/
def foldConditional (test yes no : Expr) : Expr :=
  match test with
  | .bool true => yes
  | .bool false => no
  | test => .conditional test yes no

/-- Whether an expression is this truth value. -/
def isBool (b : Bool) : Expr → Bool
  | .bool c => c == b
  | _ => false

/-- A junction.  The literal that changes nothing, `neutral`, is left out; the other one decides
the junction.  No operands make the neutral literal, and one stands for itself. -/
def foldJunction (neutral : Bool) (operands : List Expr) : Expr :=
  if operands.any (isBool !neutral) then .bool !neutral
  else
    match operands.filter fun operand => !operand.isBool neutral with
    | [] => .bool neutral
    | [operand] => operand
    | operands => if neutral then .all operands else .any operands

/-! ### The whole expression -/

mutual

/-- Simplifies an expression. -/
def simplify : Expr → Except FoldAbort Expr
  | .null => .ok .null
  | .bool b => .ok (.bool b)
  | .int n => .ok (.int n)
  | .float x => .ok (.float x)
  | .string s => .ok (.string s)
  | .list items => return .list (← simplifyAll items)
  | .map entries => return .map (← simplifyEntries entries)
  | .ident name => .ok (.ident name)
  | .field base name => return .field (← simplify base) name
  | .index base key => return .index (← simplify base) (← simplify key)
  | .unary op operand => return foldUnary op (← simplify operand)
  | .binary op left right => do
    let left ← simplify left
    let right ← simplify right
    foldBinary op left right
  | .conditional test yes no =>
    return foldConditional (← simplify test) (← simplify yes) (← simplify no)
  | .call function arguments => return .call function (← simplifyAll arguments)
  | .all operands => return foldJunction true (← simplifyAll operands)
  | .any operands => return foldJunction false (← simplifyAll operands)
  | .assign rules none => return .assign (← simplifyRules rules) none
  | .assign rules (some patch) =>
    return .assign (← simplifyRules rules) (some (← simplify patch))

def simplifyAll : List Expr → Except FoldAbort (List Expr)
  | [] => .ok []
  | item :: rest => return (← simplify item) :: (← simplifyAll rest)

def simplifyEntries : List (String × Expr) → Except FoldAbort (List (String × Expr))
  | [] => .ok []
  | (key, value) :: rest => return (key, ← simplify value) :: (← simplifyEntries rest)

def simplifyRules : List (Expr × Expr) → Except FoldAbort (List (Expr × Expr))
  | [] => .ok []
  | (condition, transform) :: rest =>
    return (← simplify condition, ← simplify transform) :: (← simplifyRules rest)

end

end Expr

end TransitionRules
