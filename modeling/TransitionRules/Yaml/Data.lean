/-
TransitionRules/Yaml/Data.lean

The data of a document's nodes.  Keys of mappings are the texts of scalars, whatever they look
like, and of two entries with one key the later one counts.  Collections nest at most `depthLimit`
deep, and an alias may not be followed more than `aliasFactor` times for every piece of the
document.
-/
import TransitionRules.Yaml.CoreSchema
import TransitionRules.Yaml.Node

namespace TransitionRules.Yaml

/-- How deep collections may nest. -/
def depthLimit : Nat := 128

/-- How often aliases may be followed for every piece of a document. -/
def aliasFactor : Nat := 100

/-- A reading that counts the aliases followed so far. -/
abbrev Following (α : Type) := StateT Nat (Except Fault) α

namespace Document

/-- The node that a node stands for, behind an alias. -/
def follow (document : Document) : Node → Following Node
  | .alias number => do
    let count ← get
    if aliasFactor * document.root.pieces ≤ count then throw .tooManyAliases
    else
      set (count + 1)
      match document.anchored.lookup number with
      | some node => return node
      | none => throw .tooDeep
  | node => return node

/-- A tag that there is no data for. -/
def isLocal (tag : Option String) : Bool := tag.any (·.startsWith "!")

/-- The text of a key. -/
def keyText (document : Document) (node : Node) : Following String := do
  match ← document.follow node with
  | .scalar text _ _ => return text
  | _ => throw .key

/-- The data of a node in which collections nest at most so deep. -/
def data (document : Document) : Nat → Node → Following Json
  | depth, node => do
    match ← document.follow node with
    | .scalar text style tag => scalarData text style tag
    | .sequence items tag =>
      match depth with
      | 0 => throw .tooDeep
      | depth + 1 =>
        if isLocal tag then throw .tag
        else return .array (← items.mapM (document.data depth))
    | .mapping entries tag =>
      match depth with
      | 0 => throw .tooDeep
      | depth + 1 =>
        if isLocal tag then throw .tag
        else
          let fields ← entries.foldlM (fun (fields : Object) (key, value) => do
            let name ← document.keyText key
            return fields.insert name (← document.data depth value)) .nil
          return .object fields
    | .alias _ => throw .tokenOrder

/-- The items of a node that has to be a sequence; what is not there is an empty one. -/
def items (document : Document) (depth : Nat) (node : Node) : Following (List Json) := do
  match ← document.follow node with
  | .sequence items _ => items.mapM (document.data depth)
  | .scalar "" .plain _ => return []
  | _ => throw .tokenOrder

/-- The items of the entry of a mapping that has this key.  The other entries may hold anything,
but their keys are scalars, and the key stands only once. -/
def itemsAt (document : Document) (depth : Nat) (key : String) (found : Option (List Json)) :
    List (Node × Node) → Following (List Json)
  | [] =>
    match found with
    | some items => return items
    | none => throw .tokenOrder
  | (name, value) :: rest => do
    if (← document.keyText name) = key then
      if found.isSome then throw .key
      else
        let items ← document.items depth value
        document.itemsAt depth key (some items) rest
    else document.itemsAt depth key found rest

/-- The items of the entry with a key in the mapping that a document is. -/
def topItems (document : Document) (key : String) : Except Fault (List Json) :=
  match document.root with
  | .mapping entries _ => (document.itemsAt (depthLimit - 2) key none entries).run' 0
  | _ => .error .tokenOrder

end Document

/-- The items of the entry with a key in the mapping that a text holds. -/
def topItems (key text : String) : Except Fault (List Json) := do
  match ← Document.ofText text with
  | some document => document.topItems key
  | none => .error .emptyStream

end TransitionRules.Yaml
