/-
TransitionRules/Expr/Operator.lean

The operators of rule expressions, with the symbols that stand for them in source text.
-/

namespace TransitionRules

/-- Operators with one operand. -/
inductive UnaryOp where
  /-- Logical negation. -/
  | not
  /-- Arithmetic negation. -/
  | neg
  deriving DecidableEq, Repr

/-- Operators with two operands. -/
inductive BinaryOp where
  | add | sub | mul | div | mod
  | eq | ne | lt | le | gt | ge
  | and | or
  | contains | startsWith | endsWith
  /-- Search for a pattern. -/
  | matches
  /-- Membership of a value in a collection. -/
  | isIn
  deriving DecidableEq, Repr

/-- The operator in source text. -/
def UnaryOp.symbol : UnaryOp → String
  | .not => "!"
  | .neg => "-"

/-- The operator in source text. -/
def BinaryOp.symbol : BinaryOp → String
  | .add => "+"
  | .sub => "-"
  | .mul => "*"
  | .div => "/"
  | .mod => "%"
  | .eq => "=="
  | .ne => "!="
  | .lt => "<"
  | .le => "<="
  | .gt => ">"
  | .ge => ">="
  | .and => "&&"
  | .or => "||"
  | .contains => "contains"
  | .startsWith => "starts_with"
  | .endsWith => "ends_with"
  | .matches => "matches"
  | .isIn => "in"

end TransitionRules
