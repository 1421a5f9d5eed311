/-
TransitionRules/Json/MergePatch.lean

Merge patches.  A patch that is no object replaces the document.  A patch that is an object edits
the document's fields one by one: null removes the field, anything else is merged into it; a
document that is no object counts as an empty one.
-/
import TransitionRules.Json.Basic

namespace TransitionRules.Json

/-- The fields of a document; a document that is no object has none. -/
def fieldsOrNone : Json → Object
  | .object fields => fields
  | _ => .nil

mutual

/-- The document changed as the patch says. -/
def mergePatch : Json → Json → Json
  | .object changes, target => .object (patchFields changes target.fieldsOrNone)
  | .null, _ => .null
  | .bool b, _ => .bool b
  | .number n, _ => .number n
  | .string s, _ => .string s
  | .array items, _ => .array items

/-- The fields changed as the fields of a patch say. -/
def patchFields : {low : Option String} → FieldsAfter Json low → Object → Object
  | _, .nil, target => target
  | _, .cons name _ value rest, target =>
    if value.isNull then patchFields rest (target.erase name)
    else
      patchFields rest
        (target.insert name (mergePatch value ((target.get? name).getD .null)))

end

end TransitionRules.Json
