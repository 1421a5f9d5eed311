/-
TransitionRules/Expr/Source.lean

Expressions as source text for readers.  The text is not meant to be read back: numbers are
written without exponent and an integral double looks like an integer.
-/
import TransitionRules.Decimal.Layout
import TransitionRules.Expr.Basic

namespace TransitionRules.Expr

/-- Doubles in source text: shortest digits without exponent, a tie going up, and no point in
integral numbers. -/
def floatLayout : Decimal.Layout where
  tie := .up
  positional := none
  point := false
  infinite := "inf"
  nan := "NaN"

/-- A string in quotes, with the quotes inside it escaped. -/
def quoted (s : String) : String :=
  String.ofList ('"' :: (s.toList.flatMap fun c => if c = '"' then ['\\', '"'] else [c]) ++ ['"'])

mutual

/-- The source text of an expression. -/
def source : Expr → String
  | .null => "null"
  | .bool true => "true"
  | .bool false => "false"
  | .int n => toString n.toInt
  | .float x => floatLayout.write x
  | .string s => quoted s
  | .list items => "[" ++ ", ".intercalate (sources items) ++ "]"
  | .map entries => "\x7b" ++ ", ".intercalate (entrySources entries) ++ "\x7d"
  | .ident name => name
  | .field base name => base.source ++ "." ++ name
  | .index base key => base.source ++ "[" ++ key.source ++ "]"
  | .unary op operand => op.symbol ++ operand.source
  | .binary op left right => "(" ++ left.source ++ " " ++ op.symbol ++ " " ++ right.source ++ ")"
  | .conditional test yes no =>
    "(" ++ test.source ++ " ? " ++ yes.source ++ " : " ++ no.source ++ ")"
  | .call function arguments => function ++ "(" ++ ", ".intercalate (sources arguments) ++ ")"
  | .all operands => "all(" ++ " && ".intercalate (sources operands) ++ ")"
  | .any operands => "any(" ++ " || ".intercalate (sources operands) ++ ")"
  | .assign rules none => "assign(" ++ "; ".intercalate (ruleSources rules) ++ ")"
  | .assign rules (some patch) =>
    "assign(" ++ patch.source ++ "; " ++ "; ".intercalate (ruleSources rules) ++ ")"

def sources : List Expr → List String
  | [] => []
  | item :: rest => item.source :: sources rest

def entrySources : List (String × Expr) → List String
  | [] => []
  | (key, value) :: rest => (quoted key ++ ": " ++ value.source) :: entrySources rest

def ruleSources : List (Expr × Expr) → List String
  | [] => []
  | (condition, transform) :: rest =>
    (condition.source ++ " => " ++ transform.source) :: ruleSources rest

end

end TransitionRules.Expr
