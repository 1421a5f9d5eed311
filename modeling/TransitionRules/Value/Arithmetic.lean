/-
TransitionRules/Value/Arithmetic.lean

Arithmetic on run-time values.  Two numbers are first brought to a common form (`Numbers`): two
signed words wrap around, a pair with an unsigned integer is computed exactly and narrowed
afterwards, and a pair with a double is computed in doubles.  Division and remainder of integers
truncate toward zero.
-/
import TransitionRules.Binary64
import TransitionRules.Value.Basic

namespace TransitionRules

/-- Two numbers in a common form. -/
inductive Numbers where
  | words (left right : Int64)
  /-- Integers at least one of which is unsigned. -/
  | wide (left right : Int)
  | floats (left right : Float)

/-- The common form of two values, if both are numbers. -/
def Numbers.of? : Value → Value → Option Numbers
  | .int a, .int b => some (.words a b)
  | .int a, .uint b => some (.wide a.toInt b.toNat)
  | .uint a, .int b => some (.wide a.toNat b.toInt)
  | .uint a, .uint b => some (.wide a.toNat b.toNat)
  | .float a, .float b => some (.floats a b)
  | .float a, .int b => some (.floats a (Float.ofInt b.toInt))
  | .float a, .uint b => some (.floats a (Float.ofNat b.toNat))
  | .int a, .float b => some (.floats (Float.ofInt a.toInt) b)
  | .uint a, .float b => some (.floats (Float.ofNat a.toNat) b)
  | _, _ => none

namespace Value

/-- The refusal of two operands. -/
def refuse (op : BinaryOp) (left right : Value) : RuleError :=
  .type (.operands op left.kind right.kind)

/-- The same operation on words, on integers and on doubles. -/
structure Operation where
  word : Int64 → Int64 → Int64
  exact : Int → Int → Int
  float : Float → Float → Float

/-- Applies an operation to two numbers.  An exact result beyond 128 signed bits is given up for
the operation on doubles. -/
def arithmetic (op : BinaryOp) (operation : Operation) (left right : Value) :
    Except RuleError Value :=
  match Numbers.of? left right with
  | some (.words a b) => .ok (.int (operation.word a b))
  | some (.wide a b) =>
    let result := operation.exact a b
    if -0x80000000000000000000000000000000 ≤ result ∧
        result < 0x80000000000000000000000000000000 then .ok (ofInteger result)
    else .ok (.float (operation.float (Float.ofInt a) (Float.ofInt b)))
  | some (.floats a b) => .ok (.float (operation.float a b))
  | none => .error (refuse op left right)

/-- Sum of two numbers, or two strings one after the other. -/
def add (left right : Value) : Except RuleError Value :=
  match left, right with
  | .string a, .string b => .ok (.string (a ++ b))
  | left, right => arithmetic .add ⟨(· + ·), (· + ·), (· + ·)⟩ left right

/-- Difference of two numbers. -/
def sub (left right : Value) : Except RuleError Value :=
  arithmetic .sub ⟨(· - ·), (· - ·), (· - ·)⟩ left right

/-- Product of two numbers. -/
def mul (left right : Value) : Except RuleError Value :=
  arithmetic .mul ⟨(· * ·), (· * ·), (· * ·)⟩ left right

/-- Quotient of two numbers; a zero of any form divides nothing. -/
def div (left right : Value) : Except RuleError Value :=
  match Numbers.of? left right with
  | some (.words a b) =>
    if b = 0 then .error (.evaluation .divisionByZero) else .ok (.int (a / b))
  | some (.wide a b) =>
    if b = 0 then .error (.evaluation .divisionByZero) else .ok (ofInteger (a.tdiv b))
  | some (.floats a b) =>
    if b == 0.0 then .error (.evaluation .divisionByZero) else .ok (.float (a / b))
  | none => .error (refuse .div left right)

/-- Remainder of two numbers, with the sign of the dividend; a remainder of doubles by zero is no
failure but NaN. -/
def mod (left right : Value) : Except RuleError Value :=
  match Numbers.of? left right with
  | some (.words a b) =>
    if b = 0 then .error (.evaluation .moduloByZero) else .ok (.int (a % b))
  | some (.wide a b) =>
    if b = 0 then .error (.evaluation .moduloByZero) else .ok (ofInteger (a.tmod b))
  | some (.floats a b) => .ok (.float (Binary64.remainder a b))
  | none => .error (refuse .mod left right)

/-- A number with its sign changed. -/
def negate : Value → Except RuleError Value
  | .int n => .ok (.int (-n))
  | .uint n => .ok (ofInteger (-(n.toNat : Int)))
  | .float x => .ok (.float (-x))
  | other => .error (.type (.negate other.kind))

end Value

end TransitionRules
