/-
TransitionRules/Error.lean

What can go wrong with rules: a text that is no expression or no rule file, a declaration that
cannot be compiled, an evaluation that fails, and a run that reaches its limit.  Faults are
causes, each with the data that belongs to it; `RuleError.message` is the one place with their
wording.
-/
import TransitionRules.Expr.Operator
import TransitionRules.Json.Writer

namespace TransitionRules

/-! ### Texts and data that cannot be read -/

/-- Why data is no expression, or a text no rule file. -/
inductive SyntaxFault where
  /-- An array whose first item is no operator name. -/
  | head (found : Json)
  | arity (operator : String) (expected got : Nat)
  /-- The operand of `get` is no string. -/
  | pathOperand (found : Json)
  | emptyPath (path : String)
  | emptySegment (path : String)
  /-- Data that encodes no expression. -/
  | encoding
  /-- A text that is no rule file, with the name of the file it was read from. -/
  | ruleText (file : Option String)
  | noSuchFile (file : String)
  /-- A fault that a frontend reports in its own words. -/
  | reported (text : String)

/-- What is wrong, in words. -/
def SyntaxFault.message : SyntaxFault → String
  | .head found => "expression head must be an operator name, got " ++ found.compact
  | .arity operator expected got =>
    "operator '" ++ operator ++ "' expects " ++ toString expected ++ " argument(s), got " ++
      toString got
  | .pathOperand found => "get expects a field path string, got " ++ found.compact
  | .emptyPath path => "empty field path: '" ++ path ++ "'"
  | .emptySegment path => "empty segment in field path: '" ++ path ++ "'"
  | .encoding => "invalid ir"
  | .ruleText none => "YAML parse error"
  | .ruleText (some file) => "YAML parse error in " ++ file
  | .noSuchFile file => "cannot read " ++ file ++ ": No such file or directory (os error 2)"
  | .reported text => text

/-! ### Operands and arguments of the wrong kind -/

/-- The kinds of run-time values.  Integers have one kind, whatever their width. -/
inductive Kind where
  | null | bool | int | float | string | list | map
  deriving DecidableEq, Repr

/-- The word for a kind. -/
def Kind.name : Kind → String
  | .null => "null"
  | .bool => "bool"
  | .int => "int"
  | .float => "float"
  | .string => "string"
  | .list => "list"
  | .map => "map"

/-- What a function wants in place of the argument it got. -/
inductive Wanted where
  | fieldName
  | object
  | changes
  | sized
  | string
  | map
  deriving DecidableEq, Repr

/-- What is wanted, in words. -/
def Wanted.phrase : Wanted → String
  | .fieldName => "a string field name"
  | .object => "an object"
  | .changes => "an object of changes"
  | .sized => "string, list, or map"
  | .string => "string"
  | .map => "map"

/-- How many arguments a function takes. -/
structure ArgumentCount where
  least : Nat
  most : Nat
  deriving DecidableEq, Repr

/-- The count in words; a range only if there is one. -/
def ArgumentCount.phrase (count : ArgumentCount) : String :=
  if count.least = count.most then toString count.least
  else toString count.least ++ "-" ++ toString count.most

/-- A value of a kind that cannot be used where it stands. -/
inductive TypeFault where
  | negate (operand : Kind)
  | operands (op : BinaryOp) (left right : Kind)
  | field (name : String) (base : Kind)
  | index (base key : Kind)
  /-- A value that should have been an object; `role` says which one. -/
  | notObject (role : String) (found : Kind)
  | argumentCount (function : String) (expected : ArgumentCount) (got : Nat)
  | argument (function : String) (wanted : Wanted) (found : Kind)
  deriving DecidableEq, Repr

/-- What is wrong with two operands, in words. -/
def operandsMessage (op : BinaryOp) (left right : String) : String :=
  match op with
  | .add => "cannot add " ++ left ++ " and " ++ right
  | .sub => "cannot subtract " ++ left ++ " and " ++ right
  | .mul => "cannot multiply " ++ left ++ " and " ++ right
  | .div => "cannot divide " ++ left ++ " by " ++ right
  | .mod => "cannot modulo " ++ left ++ " by " ++ right
  | .isIn => "in: cannot check " ++ left ++ " membership in " ++ right
  | .contains | .startsWith | .endsWith | .matches =>
    op.symbol ++ ": unsupported types " ++ left ++ " and " ++ right
  | .eq | .ne | .lt | .le | .gt | .ge | .and | .or =>
    "cannot compare " ++ left ++ " and " ++ right

/-- What is wrong, in words. -/
def TypeFault.message : TypeFault → String
  | .negate operand => "cannot negate " ++ operand.name
  | .operands op left right => operandsMessage op left.name right.name
  | .field name base => "cannot access field '" ++ name ++ "' on " ++ base.name
  | .index base key => "cannot index " ++ base.name ++ " with " ++ key.name
  | .notObject role found => role ++ " must produce an object, got " ++ found.name
  | .argumentCount function expected got =>
    function ++ "() expects " ++ expected.phrase ++ " argument(s), got " ++ toString got
  | .argument function wanted found =>
    function ++ "() expects " ++ wanted.phrase ++ ", got " ++ found.name

/-- Failures of evaluation that are no matter of kinds. -/
inductive EvaluationFault where
  | divisionByZero
  | moduloByZero
  | emptyPath (path : String)
  /-- A failure that an extension function or a native rule reports in its own words. -/
  | raised (text : String)
  deriving DecidableEq, Repr

/-- What is wrong, in words. -/
def EvaluationFault.message : EvaluationFault → String
  | .divisionByZero => "division by zero"
  | .moduloByZero => "modulo by zero"
  | .emptyPath path => "empty path: '" ++ path ++ "'"
  | .raised text => text

/-! ### Declarations that cannot be compiled -/

/-- Why an action cannot be carried out. -/
inductive ActionFault where
  | removeArguments
  | setArguments
  | patchArguments
  | unknown (kind : String)
  deriving DecidableEq, Repr

/-- What is wrong, in words. -/
def ActionFault.message : ActionFault → String
  | .removeArguments => "remove expects a single field name"
  | .setArguments => "set expects a field name and a value"
  | .patchArguments => "patch expects a single object"
  | .unknown kind => "unknown action type '" ++ kind ++ "'"

/-- The two expressions of a declaration. -/
inductive Role where
  | condition
  | transform
  deriving DecidableEq, Repr

/-- The word for an expression's role. -/
def Role.name : Role → String
  | .condition => "match"
  | .transform => "perform"

/-! ### All of them -/

mutual

/-- Why a declaration cannot be compiled. -/
inductive DeclarationFault where
  /-- The declaration could be read but makes no sense, for the reason given. -/
  | malformed (reason : String)
  | noCondition
  | noTransform
  /-- An expression where no way of reading expressions is configured. -/
  | noFrontend (role : Role)
  /-- An expression that cannot be read, with what the frontend says about it. -/
  | expression (role : Role) (error : RuleError)
  | noActions
  | action (position : Nat) (fault : ActionFault)

/-- What can go wrong when rules are read, compiled, evaluated or run. -/
inductive RuleError where
  /-- A declaration that cannot be compiled, with its position and its name. -/
  | declaration (position : Nat) (name : String) (fault : DeclarationFault)
  | type (fault : TypeFault)
  | undefinedVariable (name : String)
  | undefinedFunction (name : String)
  | evaluation (fault : EvaluationFault)
  | parse (fault : SyntaxFault)
  /-- A text that is no search pattern. -/
  | invalidPattern
  /-- A run that still changes its object when its limit of passes is reached. -/
  | nonConvergence (passes : Nat)

end

mutual

/-- What is wrong, in words. -/
def DeclarationFault.message : DeclarationFault → String
  | .malformed reason => reason
  | .noCondition => "missing match condition"
  | .noTransform => "missing perform transform or actions"
  | .noFrontend role =>
    role.name ++ " expression given but no expression frontend is configured"
  | .expression role error => role.name ++ " expression: " ++ error.message
  | .noActions => "empty action list"
  | .action position fault => "action #" ++ toString position ++ ": " ++ fault.message

/-- What went wrong, in words. -/
def RuleError.message : RuleError → String
  | .declaration position name fault =>
    "invalid rule #" ++ toString position ++ " (" ++ name ++ "): " ++ fault.message
  | .type fault => "type error: " ++ fault.message
  | .undefinedVariable name => "undefined variable: " ++ name
  | .undefinedFunction name => "undefined function: " ++ name
  | .evaluation fault => "evaluation error: " ++ fault.message
  | .parse fault => "parse error: " ++ fault.message
  | .invalidPattern => "invalid regex"
  | .nonConvergence passes => "rules did not converge after " ++ toString passes ++ " iterations"

end

end TransitionRules
