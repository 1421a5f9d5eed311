/-
TransitionRules/Json/Shape.lean

Reading data of a fixed shape: strings, truth values, lists, and records whose fields are given by
name or, in their order, as a list.  `ShapeFault` says where data does not have the shape that is
expected.
-/
import TransitionRules.Json.Writer
import TransitionRules.Text.Category

namespace TransitionRules

/-- What data should have been. -/
inductive Shape where
  | string
  | boolean
  | sequence
  /-- A record, with the number of its fields. -/
  | record (name : String) (size : Nat)
  deriving DecidableEq, Repr

/-- The shape in words. -/
def Shape.phrase : Shape → String
  | .string => "a string"
  | .boolean => "a boolean"
  | .sequence => "a sequence"
  | .record name _ => "struct " ++ name

/-- Why data does not have the shape that is expected. -/
inductive ShapeFault where
  | missing (field : String)
  | unknown (field : String) (known : List String)
  | kind (found : Json) (expected : Shape)
  /-- A record given as a list that ends before the item at this position. -/
  | short (position : Nat) (expected : Shape)
  /-- A record given as a list of more items than it has fields. -/
  | surplus (length : Nat)

namespace ShapeFault

/-- Whether a character is shown as it is: not if it has no shape of its own, alone or after
another character. -/
def isShown (c : Char) : Bool :=
  c = ' ' || !Text.isExtendingSpacingMark c &&
    match Text.category c with
    | .control | .format | .surrogate | .privateUse | .unassigned => false
    | .lineSeparator | .paragraphSeparator | .spaceSeparator => false
    | .nonspacingMark | .enclosingMark => false
    | _ => true

/-- A character inside the quotes of a fault. -/
def showChar (c : Char) : List Char :=
  match c with
  | '"' => ['\\', '"']
  | '\\' => ['\\', '\\']
  | '\n' => ['\\', 'n']
  | '\r' => ['\\', 'r']
  | '\t' => ['\\', 't']
  | c =>
    if c.toNat = 0 then ['\\', '0']
    else if isShown c then [c]
    else '\\' :: 'u' :: '\x7b' :: (Nat.toDigits 16 c.toNat ++ ['\x7d'])

/-- A string as a fault shows it. -/
def showString (s : String) : String :=
  String.ofList ('"' :: (s.toList.flatMap showChar ++ ['"']))

/-- What was found, in words. -/
def found : Json → String
  | .null => "null"
  | .bool true => "boolean `true`"
  | .bool false => "boolean `false`"
  | .number (.int n low high) => "integer `" ++ Json.numberText (.int n low high) ++ "`"
  | .number (.float x finite) => "floating point `" ++ Json.numberText (.float x finite) ++ "`"
  | .string s => "string " ++ showString s
  | .array _ => "sequence"
  | .object _ => "map"

/-- The size of a record in words. -/
def sizePhrase : Shape → String
  | .record name size => "struct " ++ name ++ " with " ++ toString size ++ " elements"
  | shape => shape.phrase

/-- What is wrong, in words. -/
def message : ShapeFault → String
  | .missing field => "missing field `" ++ field ++ "`"
  | .unknown field known =>
    "unknown field `" ++ field ++ "`, expected one of " ++
      ", ".intercalate (known.map fun name => "`" ++ name ++ "`")
  | .kind json expected => "invalid type: " ++ found json ++ ", expected " ++ expected.phrase
  | .short position expected =>
    "invalid length " ++ toString position ++ ", expected " ++ sizePhrase expected
  | .surplus length =>
    "invalid length " ++ toString length ++ ", expected fewer elements in array"

end ShapeFault

namespace Json

/-- Data that is a string. -/
def asString : Json → Except ShapeFault String
  | .string s => .ok s
  | other => .error (.kind other .string)

/-- Data that is a truth value. -/
def asBool : Json → Except ShapeFault Bool
  | .bool b => .ok b
  | other => .error (.kind other .boolean)

/-- Data that is a list. -/
def asList : Json → Except ShapeFault (List Json)
  | .array items => .ok items
  | other => .error (.kind other .sequence)

/-- Data that may be null, which counts as absent. -/
def asOptional {α : Type} (read : Json → Except ShapeFault α) :
    Json → Except ShapeFault (Option α)
  | .null => .ok none
  | other => return some (← read other)

end Json

end TransitionRules
