/-
TransitionRules/Value/Basic.lean

Run-time values and their conversion from and to JSON.  An integer is signed where 64 signed bits
hold it and unsigned above that.  A value has more floats than a document: what is not finite
becomes null on the way back.
-/
import TransitionRules.Error

namespace TransitionRules

/-- A run-time value. -/
inductive Value where
  | null
  | bool (b : Bool)
  | int (n : Int64)
  /-- An integer above the signed ones. -/
  | uint (n : UInt64)
  | float (x : Float)
  | string (s : String)
  | list (items : List Value)
  | map (fields : FieldsAfter Value none)

namespace Value

/-- The kind of a value. -/
def kind : Value → Kind
  | .null => .null
  | .bool _ => .bool
  | .int _ => .int
  | .uint _ => .int
  | .float _ => .float
  | .string _ => .string
  | .list _ => .list
  | .map _ => .map

/-- Null, false, zero and everything empty do not count as true. -/
def truthy : Value → Bool
  | .null => false
  | .bool b => b
  | .int n => n != 0
  | .uint n => n != 0
  | .float x => x != 0.0
  | .string s => s != ""
  | .list items => !items.isEmpty
  | .map fields => !fields.isEmpty

/-- An integer as a value: signed or unsigned where 64 bits hold it, the nearest double
elsewhere. -/
def ofInteger (n : Int) : Value :=
  if -0x8000000000000000 ≤ n ∧ n < 0x8000000000000000 then .int (Int64.ofInt n)
  else if 0 ≤ n ∧ n < 0x10000000000000000 then .uint (UInt64.ofNat n.toNat)
  else .float (Float.ofInt n)

/-! ### From JSON -/

/-- A number of a document as a value. -/
def ofNumber : Number → Value
  | .int n _ _ => ofInteger n
  | .float x _ => .float x

mutual

/-- A document as a value. -/
def ofJson : Json → Value
  | .null => .null
  | .bool b => .bool b
  | .number n => ofNumber n
  | .string s => .string s
  | .array items => .list (ofJsonItems items)
  | .object fields => .map (ofJsonFields fields)

def ofJsonItems : List Json → List Value
  | [] => []
  | item :: rest => ofJson item :: ofJsonItems rest

def ofJsonFields : {low : Option String} → FieldsAfter Json low → FieldsAfter Value low
  | _, .nil => .nil
  | _, .cons name after value rest => .cons name after (ofJson value) (ofJsonFields rest)

end

/-- An object as a value. -/
def ofObject (fields : Object) : Value := .map (ofJsonFields fields)

/-! ### To JSON -/

/-- A double as a document: null if it is not finite. -/
def floatToJson (x : Float) : Json :=
  match Number.ofFloat? x with
  | some n => .number n
  | none => .null

mutual

/-- A value as a document. -/
def toJson : Value → Json
  | .null => .null
  | .bool b => .bool b
  | .int n => .number (.int n.toInt (Int64.le_toInt n)
      (Int.lt_trans (Int64.toInt_lt n) (by decide)))
  | .uint n => .number (.int n.toNat (by omega) (by have := UInt64.toNat_lt n; omega))
  | .float x => floatToJson x
  | .string s => .string s
  | .list items => .array (toJsonItems items)
  | .map fields => .object (toJsonFields fields)

def toJsonItems : List Value → List Json
  | [] => []
  | item :: rest => toJson item :: toJsonItems rest

def toJsonFields : {low : Option String} → FieldsAfter Value low → FieldsAfter Json low
  | _, .nil => .nil
  | _, .cons name after value rest => .cons name after (toJson value) (toJsonFields rest)

end

/-- The object that a value is; the error names the value's role.  A double that is not finite
counts as the null that it becomes. -/
def toObject (role : String) (value : Value) : Except RuleError Object :=
  match value.toJson with
  | .object fields => .ok fields
  | other => .error (.type (.notObject role (ofJson other).kind))

/-- The text of a value: a string stands for itself, anything else is written as JSON. -/
def display : Value → String
  | .string s => s
  | other => other.toJson.compact

/-! ### Parts of a value -/

/-- A field of a value.  A missing field and any field of null read as null, so that a condition
can probe a path that is not there. -/
def field (name : String) : Value → Except RuleError Value
  | .map fields => .ok ((fields.get? name).getD .null)
  | .null => .ok .null
  | other => .error (.type (.field name other.kind))

/-- The place in a list of the given length that an index stands for; a negative index counts
from the end. -/
def place? (length : Nat) (index : Int) : Option Nat :=
  if 0 ≤ index then some index.toNat
  else if 0 ≤ length + index then some (length + index).toNat
  else none

/-- An item of a list or a field of a map; what is not there reads as null. -/
def item (base key : Value) : Except RuleError Value :=
  match base, key with
  | .list items, .int n => .ok (((place? items.length n.toInt).bind (items[·]?)).getD .null)
  | .map fields, .string name => .ok ((fields.get? name).getD .null)
  | .null, _ => .ok .null
  | base, key => .error (.type (.index base.kind key.kind))

end Value

end TransitionRules
