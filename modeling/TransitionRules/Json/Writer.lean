/-
TransitionRules/Json/Writer.lean

JSON text.  `Json.compact` writes a document without any blanks, `Json.pretty` with two blanks for
each level; fields come out in the order of their names.  Strings escape quotes, backslashes and
control characters and nothing else.
-/
import TransitionRules.Json.Basic
import TransitionRules.Decimal.Layout

namespace TransitionRules.Json

/-- Doubles in JSON text: shortest digits, positional while the first digit's exponent is between
-5 and 15, a final `.0` on integral numbers, and `null` for what is not a number. -/
def floatLayout : Decimal.Layout where
  tie := .toEven
  positional := some (-5, 15)
  point := true
  infinite := "null"
  nan := "null"

/-- The text of a number. -/
def numberText : Number → String
  | .int n _ _ => toString n
  | .float x _ => floatLayout.write x

/-- A digit of a hexadecimal escape. -/
def hexDigit (n : Nat) : Char :=
  if n < 10 then Char.ofNat (48 + n) else Char.ofNat (87 + n)

/-- A character inside a string's quotes. -/
def escapeChar (c : Char) : List Char :=
  match c with
  | '"' => ['\\', '"']
  | '\\' => ['\\', '\\']
  | '\n' => ['\\', 'n']
  | '\r' => ['\\', 'r']
  | '\t' => ['\\', 't']
  | c =>
    if c.toNat = 8 then ['\\', 'b']
    else if c.toNat = 12 then ['\\', 'f']
    else if c.toNat < 32 then
      ['\\', 'u', '0', '0', hexDigit (c.toNat / 16), hexDigit (c.toNat % 16)]
    else [c]

/-- A string in quotes. -/
def stringText (s : String) : String :=
  String.ofList ('"' :: (s.toList.flatMap escapeChar ++ ['"']))

/-! ### Without blanks -/

mutual

/-- The text of a document without any blanks. -/
def compact : Json → String
  | .null => "null"
  | .bool true => "true"
  | .bool false => "false"
  | .number n => numberText n
  | .string s => stringText s
  | .array items => "[" ++ ",".intercalate (compactItems items) ++ "]"
  | .object fields => "\x7b" ++ ",".intercalate (compactFields fields) ++ "\x7d"

def compactItems : List Json → List String
  | [] => []
  | item :: rest => item.compact :: compactItems rest

def compactFields : {low : Option String} → FieldsAfter Json low → List String
  | _, .nil => []
  | _, .cons name _ value rest =>
    (stringText name ++ ":" ++ value.compact) :: compactFields rest

end

/-! ### One item a line -/

/-- A line break and the blanks of a level. -/
def lineBreak (level : Nat) : String :=
  String.ofList ('\n' :: List.replicate (2 * level) ' ')

/-- Items between brackets, each on a line of its own; no items stay on one line. -/
def block (opening closing : String) (level : Nat) (items : List String) : String :=
  if items.isEmpty then opening ++ closing
  else
    opening ++ lineBreak (level + 1) ++ ("," ++ lineBreak (level + 1)).intercalate items ++
      lineBreak level ++ closing

mutual

/-- The text of a document whose brackets stand at a level. -/
def prettyAt (level : Nat) : Json → String
  | .array items => block "[" "]" level (prettyItems (level + 1) items)
  | .object fields => block "\x7b" "\x7d" level (prettyFields (level + 1) fields)
  | .null => "null"
  | .bool true => "true"
  | .bool false => "false"
  | .number n => numberText n
  | .string s => stringText s

def prettyItems (level : Nat) : List Json → List String
  | [] => []
  | item :: rest => prettyAt level item :: prettyItems level rest

def prettyFields (level : Nat) : {low : Option String} → FieldsAfter Json low → List String
  | _, .nil => []
  | _, .cons name _ value rest =>
    (stringText name ++ ": " ++ prettyAt level value) :: prettyFields level rest

end

/-- The text of a document with one item a line and two blanks for each level. -/
def pretty (document : Json) : String := prettyAt 0 document

end TransitionRules.Json
