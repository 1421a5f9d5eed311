/-
TransitionRules/Expr/Builtin.lean

The functions that every expression can call.  `remove`, `set` and `merge` edit the object `next`
unless an object is given as their last argument; they change no field but those they name.
-/
import TransitionRules.Value.Operation
import TransitionRules.Rule.Basic

namespace TransitionRules

/-- A function added to the ones that every expression can call. -/
abbrev Extension := List Value → Except RuleError Value

/-- The added functions by name. -/
abbrev Environment := FieldMap Extension

/-- What the variables of an expression stand for.  A condition has both states, a transform has
only `next`. -/
structure Scope where
  before : Option Object
  next : Object
  environment : Environment

namespace Scope

/-- The scope of a condition. -/
def condition (context : Context) (environment : Environment) : Scope :=
  ⟨some context.before, context.next, environment⟩

/-- The scope of a transform. -/
def transform (object : Object) (environment : Environment) : Scope :=
  ⟨none, object, environment⟩

/-- What a variable stands for. -/
def variableValue (scope : Scope) (name : String) : Except RuleError Value :=
  match name with
  | "next" => .ok (Value.ofObject scope.next)
  | "before" =>
    match scope.before with
    | some before => .ok (Value.ofObject before)
    | none => .error (.undefinedVariable "before")
  | name => .error (.undefinedVariable name)

end Scope

/-- The functions that every expression can call. -/
inductive Builtin where
  | exists | len | lower | upper | keys | toString | get | remove | set | merge
  deriving DecidableEq, Repr

namespace Builtin

/-- The function of a name. -/
def ofName? : String → Option Builtin
  | "exists" => some .exists
  | "len" => some .len
  | "lower" => some .lower
  | "upper" => some .upper
  | "keys" => some .keys
  | "to_string" => some .toString
  | "get" => some .get
  | "remove" => some .remove
  | "set" => some .set
  | "merge" => some .merge
  | _ => none

/-- The name of a function. -/
def name : Builtin → String
  | .exists => "exists"
  | .len => "len"
  | .lower => "lower"
  | .upper => "upper"
  | .keys => "keys"
  | .toString => "to_string"
  | .get => "get"
  | .remove => "remove"
  | .set => "set"
  | .merge => "merge"

/-- How many arguments a function takes. -/
def argumentCount : Builtin → ArgumentCount
  | .remove | .merge => ⟨1, 2⟩
  | .set => ⟨2, 3⟩
  | _ => ⟨1, 1⟩

/-- The refusal of an argument. -/
def refuse (function : Builtin) (wanted : Wanted) (found : Value) : RuleError :=
  .type (.argument function.name wanted found.kind)

/-- The refusal of a number of arguments. -/
def refuseCount (function : Builtin) (arguments : List Value) : RuleError :=
  .type (.argumentCount function.name function.argumentCount arguments.length)

/-- The name of a field, given as an argument. -/
def fieldName (function : Builtin) : Value → Except RuleError String
  | .string name => .ok name
  | other => .error (function.refuse .fieldName other)

/-- The fields to edit: those of the argument if there is one, else those of `next`. -/
def target (function : Builtin) (scope : Scope) :
    Option Value → Except RuleError (FieldMap Value)
  | none => .ok (Value.ofJsonFields scope.next)
  | some (.map fields) => .ok fields
  | some other => .error (function.refuse .object other)

/-- A count as a value; no integer is larger than the largest signed one. -/
def ofCount (count : Nat) : Value := .int (Int64.ofNat (min count 0x7FFFFFFFFFFFFFFF))

/-- The number of characters, items or fields. -/
def length : Value → Except RuleError Value
  | .string s => .ok (ofCount s.length)
  | .list items => .ok (ofCount items.length)
  | .map fields => .ok (ofCount fields.size)
  | other => .error (refuse .len .sized other)

/-- The string made of a string. -/
def ofString (function : Builtin) (f : String → String) : Value → Except RuleError Value
  | .string s => .ok (.string (f s))
  | other => .error (function.refuse .string other)

/-- The names of a map's fields in order. -/
def fieldNames : Value → Except RuleError Value
  | .map fields => .ok (.list (fields.names.map .string))
  | other => .error (refuse .keys .map other)

/-- Reads fields one after the other. -/
def readFields (base : Value) : List String → Except RuleError Value
  | [] => .ok base
  | name :: rest => do readFields (← base.field name) rest

/-- The value at a dotted path. -/
def atPath (scope : Scope) (path : String) : Except RuleError Value :=
  match Text.segments path with
  | [] => .error (.evaluation (.emptyPath path))
  | root :: rest =>
    if root.isEmpty then .error (.evaluation (.emptyPath path))
    else do readFields (← scope.variableValue root) rest

/-- An object without a field. -/
def removeField (scope : Scope) (name : Value) (object : Option Value) :
    Except RuleError Value := do
  let name ← fieldName .remove name
  let fields ← target .remove scope object
  return .map (fields.erase name)

/-- An object with a field set. -/
def setField (scope : Scope) (name value : Value) (object : Option Value) :
    Except RuleError Value := do
  let name ← fieldName .set name
  let fields ← target .set scope object
  return .map (fields.insert name value)

/-- An object with fields laid over it. -/
def mergeFields (scope : Scope) (changes : Value) (object : Option Value) :
    Except RuleError Value :=
  match changes with
  | .map changes => do
    let fields ← target .merge scope object
    return .map (fields.overlay changes)
  | other => .error (refuse .merge .changes other)

/-- Calls a function. -/
def call (function : Builtin) (scope : Scope) (arguments : List Value) :
    Except RuleError Value :=
  match function, arguments with
  | .exists, [value] => .ok (.bool (value.kind ≠ .null))
  | .len, [value] => length value
  | .lower, [value] => ofString .lower Text.lowercase value
  | .upper, [value] => ofString .upper Text.uppercase value
  | .keys, [value] => fieldNames value
  | .toString, [value] => .ok (.string value.display)
  | .get, [path] => do atPath scope (← fieldName .get path)
  | .remove, [name] => removeField scope name none
  | .remove, [name, object] => removeField scope name (some object)
  | .set, [name, value] => setField scope name value none
  | .set, [name, value, object] => setField scope name value (some object)
  | .merge, [changes] => mergeFields scope changes none
  | .merge, [changes, object] => mergeFields scope changes (some object)
  | function, arguments => .error (function.refuseCount arguments)

end Builtin

end TransitionRules
