/-
TransitionRules/Json/Basic.lean

JSON documents.  A number is an integer of at most 64 bits, signed or unsigned, or a finite double;
`1` and `1.0` are different numbers.  An object is a `FieldMap`, so its names are distinct and
sorted by the type alone.

`Json.sameValue` is the comparison by value: objects by name, arrays by position, and numbers by
the quantity they denote, so that `1` and `1.0` have the same value.
-/
import TransitionRules.FieldMap.Basic

namespace TransitionRules

/-- A number of a JSON document. -/
inductive Number where
  | int (n : Int) (low : -0x8000000000000000 ≤ n) (high : n < 0x10000000000000000)
  | float (x : Float) (finite : x.isFinite = true)
  deriving DecidableEq

namespace Number

/-- The integer as a number, if it is in range. -/
def ofInt? (n : Int) : Option Number :=
  if h : -0x8000000000000000 ≤ n ∧ n < 0x10000000000000000 then some (.int n h.1 h.2) else none

/-- A natural number below `2 ^ 64`, reduced into that range. -/
def ofNat (n : Nat) : Number :=
  .int (n % 0x10000000000000000 : Nat) (by omega) (by omega)

/-- The double as a number, if it is finite. -/
def ofFloat? (x : Float) : Option Number :=
  if h : x.isFinite = true then some (.float x h) else none

/-- The nearest double. -/
def toFloat : Number → Float
  | .int n _ _ => Float.ofInt n
  | .float x _ => x

/-- Two integers have the same value when they are equal; any other pair is compared as
doubles. -/
def sameValue : Number → Number → Bool
  | .int n _ _, .int m _ _ => n == m
  | first, second => first.toFloat == second.toFloat

end Number

/-- A JSON document. -/
inductive Json where
  | null
  | bool (b : Bool)
  | number (n : Number)
  | string (s : String)
  | array (items : List Json)
  | object (fields : FieldsAfter Json none)

/-- A JSON object. -/
abbrev Object := FieldMap Json

namespace Json

mutual

/-- Equality by value. -/
def sameValue : Json → Json → Bool
  | .null, .null => true
  | .bool a, .bool b => a == b
  | .number a, .number b => a.sameValue b
  | .string a, .string b => a == b
  | .array xs, .array ys => sameItems xs ys
  | .object fs, .object gs => fs.size == gs.size && sameFields fs gs
  | _, _ => false

/-- Equality of two lists, position by position. -/
def sameItems : List Json → List Json → Bool
  | [], [] => true
  | x :: xs, y :: ys => x.sameValue y && sameItems xs ys
  | _, _ => false

/-- Whether every field has a counterpart of the same value. -/
def sameFields : {low : Option String} → FieldsAfter Json low → Object → Bool
  | _, .nil, _ => true
  | _, .cons name _ value rest, other =>
    (match other.get? name with
      | some found => value.sameValue found
      | none => false) && sameFields rest other

end

/-- Whether a document is null. -/
def isNull : Json → Bool
  | .null => true
  | _ => false

/-- The item of a field, for documents that are objects. -/
def field? (name : String) : Json → Option Json
  | .object fields => fields.get? name
  | _ => none

/-- A text document's text. -/
def string? : Json → Option String
  | .string s => some s
  | _ => none

/-- A truth value's content. -/
def bool? : Json → Option Bool
  | .bool b => some b
  | _ => none

end Json

/-- Equality of objects by value, whatever the order of their fields was. -/
def Object.sameValue (first second : Object) : Bool :=
  (Json.object first).sameValue (.object second)

end TransitionRules
