/-
TransitionRules/Expr/ArraySyntax.lean

Expressions written as JSON arrays, such as `["!=", ["get", "before.a"], ["get", "next.a"]]`.  An
array begins with the name of an operator and goes on with its operands; a name that is no
operator calls a function.  Scalars stand for themselves, and an object is a map of expressions.

The operand of `get` is a dotted path such as `before.category`: a variable, and fields read from it
one after the other.
-/
import TransitionRules.Error
import TransitionRules.Expr.Basic
import TransitionRules.Text.Search

namespace TransitionRules.Expr

/-! ### Paths -/

/-- Fields read one after the other; `path` is the whole path, for the error. -/
def readFields (path : String) (base : Expr) : List String → Except SyntaxFault Expr
  | [] => .ok base
  | name :: rest =>
    if name.isEmpty then .error (.emptySegment path)
    else readFields path (.field base name) rest

/-- The expression of a dotted path; no segment of it is empty. -/
def ofPath (path : String) : Except SyntaxFault Expr :=
  match Text.segments path with
  | [] => .error (.emptyPath path)
  | root :: rest =>
    if root.isEmpty then .error (.emptyPath path) else readFields path (.ident root) rest

/-! ### Literals -/

/-- A number as a literal; an integer beyond a signed word becomes a double. -/
def ofNumber : Number → Expr
  | .int n low high =>
    if n < 0x8000000000000000 then .int (Int64.ofInt n) else .float (Number.int n low high).toFloat
  | .float x _ => .float x

mutual

/-- A document as a literal, whatever it looks like. -/
def literal : Json → Expr
  | .null => .null
  | .bool b => .bool b
  | .number n => ofNumber n
  | .string s => .string s
  | .array items => .list (literals items)
  | .object fields => .map (literalFields fields)

def literals : List Json → List Expr
  | [] => []
  | item :: rest => literal item :: literals rest

def literalFields : {low : Option String} → FieldsAfter Json low → List (String × Expr)
  | _, .nil => []
  | _, .cons name _ value rest => (name, literal value) :: literalFields rest

end

/-! ### Operators -/

/-- The operator with two operands that a name stands for. -/
def binaryOp? : String → Option BinaryOp
  | "==" => some .eq
  | "!=" => some .ne
  | "<" => some .lt
  | "<=" => some .le
  | ">" => some .gt
  | ">=" => some .ge
  | "+" => some .add
  | "-" => some .sub
  | "*" => some .mul
  | "/" => some .div
  | "%" => some .mod
  | "contains" => some .contains
  | "starts-with" => some .startsWith
  | "ends-with" => some .endsWith
  | "matches" => some .matches
  | "in" => some .isIn
  | _ => none

/-- The head of an array. -/
inductive Head where
  | binary (op : BinaryOp)
  | all
  | any
  | not
  | get
  | conditional
  | literal
  | assign
  | call

/-- The head that a name stands for. -/
def Head.ofName (name : String) : Head :=
  match binaryOp? name with
  | some op => .binary op
  | none =>
    match name with
    | "all" => .all
    | "any" => .any
    | "!" | "not" => .not
    | "get" => .get
    | "if" => .conditional
    | "literal" => .literal
    | "reducer-assign" => .assign
    | _ => .call

/-! ### Arrays -/

/-- An operand: the data as it stands, and the expression that it is. -/
structure Operand where
  data : Json
  expression : Except SyntaxFault Expr

/-- The expressions of all operands; the first fault counts. -/
def allExpressions : List Operand → Except SyntaxFault (List Expr)
  | [] => .ok []
  | operand :: rest => return (← operand.expression) :: (← allExpressions rest)

/-- Conditions and transforms by turns; one operand left over is a patch. -/
def ruleExpressions : List Operand → Except SyntaxFault (List (Expr × Expr) × Option Expr)
  | [] => .ok ([], none)
  | [patch] => return ([], some (← patch.expression))
  | condition :: transform :: rest => do
    let condition ← condition.expression
    let transform ← transform.expression
    let (rules, patch) ← ruleExpressions rest
    return ((condition, transform) :: rules, patch)

/-- The expression of a head and its operands; `name` is the name of the head. -/
def applied (name : String) (head : Head) (operands : List Operand) : Except SyntaxFault Expr :=
  match head, operands with
  | .binary op, [left, right] => return .binary op (← left.expression) (← right.expression)
  | .binary .sub, [operand] => return .unary .neg (← operand.expression)
  | .binary _, operands => .error (.arity name 2 operands.length)
  | .all, operands => return .all (← allExpressions operands)
  | .any, operands => return .any (← allExpressions operands)
  | .not, [operand] => return .unary .not (← operand.expression)
  | .not, operands => .error (.arity name 1 operands.length)
  | .get, [⟨.string path, _⟩] => ofPath path
  | .get, [⟨other, _⟩] => .error (.pathOperand other)
  | .get, operands => .error (.arity name 1 operands.length)
  | .conditional, [test, yes, no] =>
    return .conditional (← test.expression) (← yes.expression) (← no.expression)
  | .conditional, operands => .error (.arity name 3 operands.length)
  | .literal, [⟨document, _⟩] => .ok (Expr.literal document)
  | .literal, operands => .error (.arity name 1 operands.length)
  | .assign, operands => do
    let (rules, patch) ← ruleExpressions operands
    return .assign rules patch
  | .call, operands => return .call name (← allExpressions operands)

mutual

/-- The expression of an array or another document. -/
def ofArrays : Json → Except SyntaxFault Expr
  | .array [] => .ok (.list [])
  | .array (.string name :: operands) => applied name (Head.ofName name) (operandsOf operands)
  | .array (head :: _) => .error (.head head)
  | .object fields => return .map (← entriesOfArrays fields)
  | .null => .ok .null
  | .bool b => .ok (.bool b)
  | .number n => .ok (ofNumber n)
  | .string s => .ok (.string s)

def operandsOf : List Json → List Operand
  | [] => []
  | item :: rest => ⟨item, ofArrays item⟩ :: operandsOf rest

def entriesOfArrays : {low : Option String} → FieldsAfter Json low →
    Except SyntaxFault (List (String × Expr))
  | _, .nil => .ok []
  | _, .cons name _ value rest => return (name, ← ofArrays value) :: (← entriesOfArrays rest)

end

end TransitionRules.Expr
