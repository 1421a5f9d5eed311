/-
TransitionRules/Rule/Action.lean

Actions: edits of an object that are given as data.  An `ActionSpec` is what an author writes, a
type and arguments; an `Action` is one that makes sense.
-/
import TransitionRules.Error
import TransitionRules.Json.MergePatch
import TransitionRules.Json.Ordered
import TransitionRules.Json.Shape

namespace TransitionRules

/-- An action as written. -/
structure ActionSpec where
  kind : String
  arguments : List Json

namespace ActionSpec

/-- The shape of a written action. -/
def shape : Shape := .record "ActionSpec" 2

/-- The fields of a written action that have been read. -/
structure Fields where
  kind : Option String := none
  arguments : Option (List Json) := none

/-- Reads one field; fields with other names do not count. -/
def readField (fields : Fields) (name : String) (value : Json) : Except ShapeFault Fields :=
  match name with
  | "type" => return { fields with kind := some (← value.asString) }
  | "args" => return { fields with arguments := some (← value.asList) }
  | _ => .ok fields

/-- The action of an object.  The first fault in the order of the field names counts, and a
missing field is noticed last. -/
def ofFields (object : Object) : Except ShapeFault ActionSpec := do
  let fields ← object.toList.foldlM (fun fields field => readField fields field.1 field.2) {}
  match fields.kind with
  | some kind => return ⟨kind, fields.arguments.getD []⟩
  | none => .error (.missing "type")

/-- The action of a list: its type and its arguments, which may be left out. -/
def ofItems : List Json → Except ShapeFault ActionSpec
  | [] => .error (.short 0 shape)
  | [kind] => return ⟨← kind.asString, []⟩
  | kind :: arguments :: rest => do
    let kind ← kind.asString
    let arguments ← arguments.asList
    if rest.isEmpty then return ⟨kind, arguments⟩ else .error (.surplus (rest.length + 2))

/-- The action of data. -/
def ofJson : Json → Except ShapeFault ActionSpec
  | .object object => ofFields object
  | .array items => ofItems items
  | other => .error (.kind other shape)

/-- A written action as a document. -/
def document (spec : ActionSpec) : OrderedJson :=
  .record [("type", .string spec.kind), ("args", .json (.array spec.arguments))]

end ActionSpec

/-- An edit of an object. -/
inductive Action where
  | remove (field : String)
  | set (field : String) (value : Json)
  /-- A merge patch, in which null removes a field. -/
  | patch (changes : Object)

namespace Action

/-- The action that a written one stands for. -/
def ofSpec (spec : ActionSpec) : Except ActionFault Action :=
  match spec.kind, spec.arguments with
  | "remove", [.string field] => .ok (.remove field)
  | "set", [.string field, value] => .ok (.set field value)
  | "patch", [.object changes] => .ok (.patch changes)
  | "remove", _ => .error .removeArguments
  | "set", _ => .error .setArguments
  | "patch", _ => .error .patchArguments
  | kind, _ => .error (.unknown kind)

/-- The word for the kind of an action. -/
def label : Action → String
  | .remove _ => "remove"
  | .set _ _ => "set"
  | .patch _ => "patch"

/-- The object after an action. -/
def apply (action : Action) (object : Object) : Object :=
  match action with
  | .remove field => object.erase field
  | .set field value => object.insert field value
  | .patch changes => Json.patchFields changes object

/-- The object after a list of actions. -/
def applyAll (actions : List Action) (object : Object) : Object :=
  actions.foldl (fun object action => action.apply object) object

/-- The actions of a list of written ones; the error names the first that makes no sense. -/
def ofSpecs (position : Nat) : List ActionSpec → Except DeclarationFault (List Action)
  | [] => .ok []
  | spec :: rest =>
    match ofSpec spec with
    | .error fault => .error (.action position fault)
    | .ok action => return action :: (← ofSpecs (position + 1) rest)

end Action

end TransitionRules
