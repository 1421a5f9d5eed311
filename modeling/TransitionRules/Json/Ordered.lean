/-
TransitionRules/Json/Ordered.lean

Documents for writing whose objects list their fields in an order of their own, where a `Json`
object always lists them by name.
-/
import TransitionRules.Json.Writer

namespace TransitionRules

/-- A document whose records keep the order of their fields. -/
inductive OrderedJson where
  | json (document : Json)
  | array (items : List OrderedJson)
  | record (fields : List (String × OrderedJson))

namespace OrderedJson

/-- A string. -/
def string (s : String) : OrderedJson := .json (.string s)

/-- A natural number below `2 ^ 64`. -/
def natural (n : Nat) : OrderedJson := .json (.number (Number.ofNat n))

/-- A list of strings. -/
def strings (list : List String) : OrderedJson := .array (list.map string)

mutual

/-- The document with its fields sorted by name; of two fields with one name the later one
counts. -/
def sorted : OrderedJson → Json
  | .json document => document
  | .array items => .array (sortedItems items)
  | .record fields => .object (sortedFields fields .nil)

def sortedItems : List OrderedJson → List Json
  | [] => []
  | item :: rest => item.sorted :: sortedItems rest

def sortedFields : List (String × OrderedJson) → Object → Object
  | [], done => done
  | (name, value) :: rest, done => sortedFields rest (done.insert name value.sorted)

end

mutual

/-- The text without any blanks. -/
def compact : OrderedJson → String
  | .json document => document.compact
  | .array items => "[" ++ ",".intercalate (compactItems items) ++ "]"
  | .record fields => "\x7b" ++ ",".intercalate (compactFields fields) ++ "\x7d"

def compactItems : List OrderedJson → List String
  | [] => []
  | item :: rest => item.compact :: compactItems rest

def compactFields : List (String × OrderedJson) → List String
  | [] => []
  | (name, value) :: rest => (Json.stringText name ++ ":" ++ value.compact) :: compactFields rest

end

mutual

/-- The text of a document whose brackets stand at a level, with one item a line. -/
def prettyAt (level : Nat) : OrderedJson → String
  | .json document => document.prettyAt level
  | .array items => Json.block "[" "]" level (prettyItems (level + 1) items)
  | .record fields => Json.block "\x7b" "\x7d" level (prettyFields (level + 1) fields)

def prettyItems (level : Nat) : List OrderedJson → List String
  | [] => []
  | item :: rest => prettyAt level item :: prettyItems level rest

def prettyFields (level : Nat) : List (String × OrderedJson) → List String
  | [] => []
  | (name, value) :: rest =>
    (Json.stringText name ++ ": " ++ prettyAt level value) :: prettyFields level rest

end

/-- The text with one item a line and two blanks for each level. -/
def pretty (document : OrderedJson) : String := document.prettyAt 0

end OrderedJson

end TransitionRules
