/-
TransitionRules/RuleFile/Reader.lean

Rule files.  A file is one YAML document, or a JSON document, which is a special case: a mapping
whose entry `rules` lists the rules.  Other entries do not count.

One entry of the list is a record with the fields `name`, `description`, `enabled`, `match`,
`perform` and `actions`.  An entry that says `enabled: false` is no rule; one that cannot be read
is declared as malformed, so that it does not spoil the rules around it.
-/
import TransitionRules.Rule.Declaration
import TransitionRules.Yaml.Data

namespace TransitionRules.RuleFile

/-- An entry that could be read. -/
structure Entry where
  name : Option String := none
  description : Option String := none
  enabled : Bool := true
  condition : Option Json := none
  transform : Option Json := none
  actions : Option (List ActionSpec) := none

namespace Entry

/-- The names of the fields in their order. -/
def fieldNames : List String :=
  ["name", "description", "enabled", "match", "perform", "actions"]

/-- The shape of an entry. -/
def shape : Shape := .record "YamlRule" 6

/-- A list of actions. -/
def readActions (data : Json) : Except ShapeFault (List ActionSpec) := do
  (← data.asList).mapM ActionSpec.ofJson

/-- Reads one field. -/
def readField (entry : Entry) (name : String) (value : Json) : Except ShapeFault Entry :=
  match name with
  | "name" => return { entry with name := ← value.asOptional Json.asString }
  | "description" => return { entry with description := ← value.asOptional Json.asString }
  | "enabled" => return { entry with enabled := ← value.asBool }
  | "match" => return { entry with condition := ← value.asOptional .ok }
  | "perform" => return { entry with transform := ← value.asOptional .ok }
  | "actions" => return { entry with actions := ← value.asOptional readActions }
  | name => .error (.unknown name fieldNames)

/-- The entry of a list of fields, read in this order; the first fault counts. -/
def ofFields (fields : List (String × Json)) : Except ShapeFault Entry :=
  fields.foldlM (fun entry field => entry.readField field.1 field.2) {}

/-- The entry of a list of values, one for each field.  Of the values that are missing only
`enabled` has one to fall back on. -/
def ofItems (items : List Json) : Except ShapeFault Entry := do
  let entry ← ofFields (fieldNames.zip items)
  if items.length = 2 then .error (.short 3 shape)
  else if items.length < 6 then .error (.short items.length shape)
  else if 6 < items.length then .error (.surplus items.length)
  else return entry

/-- The entry of data. -/
def ofJson : Json → Except ShapeFault Entry
  | .object fields => ofFields fields.toList
  | .array items => ofItems items
  | other => .error (.kind other shape)

/-- A condition as data: a truth value is one already. -/
def conditionOf : Json → Condition
  | .bool fires => .constant fires
  | data => .expression data

/-- The declaration of an entry. -/
def declaration (entry : Entry) : Declaration :=
  match entry.transform, entry.actions with
  | some _, some _ =>
    { name := entry.name, performance := some (.malformed "declares both perform and actions") }
  | transform, actions =>
    { name := entry.name
      description := entry.description
      condition := entry.condition.map conditionOf
      performance := (transform.map .expression).or (actions.map .actions) }

end Entry

/-- Whether an entry takes part: only `enabled: false` keeps it from that. -/
def isEnabled (data : Json) : Bool :=
  ((data.field? "enabled").bind Json.bool?).getD true

/-- The declaration of an entry as data. -/
def declarationOf (data : Json) : Declaration :=
  match Entry.ofJson data with
  | .ok entry => entry.declaration
  | .error fault =>
    { name := (data.field? "name").bind Json.string?
      performance := some (.malformed ("malformed rule: " ++ fault.message)) }

/-- The declarations of the entries of a file, in their order. -/
def declarations (entries : List Json) : List Declaration :=
  (entries.filter isEnabled).map declarationOf

/-! ### Files -/

/-- The declarations of a rule file's text; `file` is the name of the file, for the error. -/
def read (file : Option String) (text : String) : Except SyntaxFault (List Declaration) :=
  match Yaml.topItems "rules" text with
  | .ok entries => .ok (declarations entries)
  | .error _ => .error (.ruleText file)

end TransitionRules.RuleFile
