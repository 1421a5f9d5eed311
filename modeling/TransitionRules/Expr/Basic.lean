/-
TransitionRules/Expr/Basic.lean

The expressions of rules.  A condition is an expression over two states, `before` and `next`; a
transform is one over `next` alone.
-/
import TransitionRules.Expr.Operator

namespace TransitionRules

/-- An expression. -/
inductive Expr where
  | null
  | bool (b : Bool)
  | int (n : Int64)
  | float (x : Float)
  | string (s : String)
  | list (items : List Expr)
  /-- A map; of two entries with one key the later one counts. -/
  | map (entries : List (String × Expr))
  /-- A variable. -/
  | ident (name : String)
  | field (base : Expr) (name : String)
  | index (base key : Expr)
  | unary (op : UnaryOp) (operand : Expr)
  | binary (op : BinaryOp) (left right : Expr)
  | conditional (test yes no : Expr)
  | call (function : String) (arguments : List Expr)
  /-- Whether all operands hold; evaluation stops at the first that does not. -/
  | all (operands : List Expr)
  /-- Whether some operand holds; evaluation stops at the first that does. -/
  | any (operands : List Expr)
  /-- The object `next` with a patch laid over it, after rules of its own have run on it; each
  rule is a condition and a transform. -/
  | assign (rules : List (Expr × Expr)) (patch : Option Expr)

end TransitionRules
