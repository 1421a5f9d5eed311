/-
TransitionRules/Yaml/Node.lean

The nodes of a stream.  A node is a scalar, a sequence, a mapping, or an alias of a node that has
an anchor.  Anchors are numbered by how many names were known before, so an anchor whose name was
used already gets the number that the next new name gets too.
-/
import TransitionRules.FieldMap.Basic
import TransitionRules.Yaml.Scanner

namespace TransitionRules.Yaml

/-- A node.  Tags are written out in full. -/
inductive Node where
  | scalar (text : String) (style : Style) (tag : Option String)
  | sequence (items : List Node) (tag : Option String)
  | mapping (entries : List (Node × Node)) (tag : Option String)
  /-- The node with the anchor of this number. -/
  | alias (number : Nat)

namespace Node

/-- A scalar that is not there. -/
def absent : Node := .scalar "" .plain none

mutual

/-- How many pieces a node was read from: one for a scalar or an alias, and two for a collection
besides its own. -/
def pieces : Node → Nat
  | .scalar _ _ _ | .alias _ => 1
  | .sequence items _ => itemPieces items + 2
  | .mapping entries _ => entryPieces entries + 2

def itemPieces : List Node → Nat
  | [] => 0
  | item :: rest => item.pieces + itemPieces rest

def entryPieces : List (Node × Node) → Nat
  | [] => 0
  | (key, value) :: rest => key.pieces + value.pieces + entryPieces rest

end

end Node

/-! ### Reading nodes -/

/-- Where reading nodes stands. -/
structure Reader where
  tokens : List Token
  /-- What the handles of tags stand for. -/
  handles : List (String × String)
  /-- The numbers of the anchors by name. -/
  numbers : FieldMap Nat := .nil
  /-- The nodes that have anchors, by number. -/
  anchored : List (Nat × Node) := []

namespace Reader

/-- The reader after the token in front. -/
def drop (r : Reader) : Reader := { r with tokens := r.tokens.drop 1 }

/-- What stands in front of a node. -/
structure Properties where
  anchor : Option String := none
  tag : Option (String × String) := none

/-- The anchor and the tag in front of a node, in either order. -/
def properties : List Token → Properties × List Token
  | .anchor name :: .tag handle suffix :: rest => (⟨some name, some (handle, suffix)⟩, rest)
  | .tag handle suffix :: .anchor name :: rest => (⟨some name, some (handle, suffix)⟩, rest)
  | .anchor name :: rest => (⟨some name, none⟩, rest)
  | .tag handle suffix :: rest => (⟨none, some (handle, suffix)⟩, rest)
  | rest => ({}, rest)

/-- A tag written out in full; one without any text counts as none. -/
def fullTag (r : Reader) : Option (String × String) → Except Fault (Option String)
  | none => .ok none
  | some (handle, suffix) =>
    if handle.isEmpty then .ok (if suffix.isEmpty then none else some suffix)
    else
      match r.handles.lookup handle with
      | some lead => .ok (some (lead ++ suffix))
      | none => .error .tag

/-- The tag of a scalar: an exclamation mark alone says nothing. -/
def scalarTag (tag : Option String) : Option String := tag.filter (· ≠ "!")

/-- Gives a name its number. -/
def number (r : Reader) : Option String → Option Nat × Reader
  | none => (none, r)
  | some name =>
    let n := r.numbers.size
    (some n, { r with numbers := r.numbers.insert name n })

/-- Keeps a node that has an anchor, unless a node inside it has taken its number; `known` is how
many nodes were kept before it began. -/
def keep (r : Reader) (known : Nat) (number : Option Nat) (node : Node) : Node × Reader :=
  match number with
  | some n =>
    let inside := r.anchored.take (r.anchored.length - known)
    if (inside.lookup n).isSome then (node, r)
    else (node, { r with anchored := (n, node) :: r.anchored })
  | none => (node, r)

/-- What kind of entry a block sequence ends or goes on with. -/
def endsEntry (inMapping : Bool) : List Token → Bool
  | .blockEntry :: _ => !inMapping
  | .blockEnd :: _ => true
  | .key :: _ | .value :: _ => inMapping
  | _ => false

/-- Like `endsEntry`, in a sequence that is not indented. -/
def endsIndentless : List Token → Bool
  | .blockEntry :: _ | .key :: _ | .value :: _ | .blockEnd :: _ => true
  | _ => false

mutual

/-- A node.  `block` allows block collections and `indentless` a sequence at the column of the
mapping around it. -/
def node (block indentless : Bool) : Nat → Reader → Except Fault (Node × Reader)
  | 0, _ => .error .tokenOrder
  | fuel + 1, r =>
    match r.tokens with
    | .alias name :: rest =>
      match r.numbers.get? name with
      | some n => .ok (.alias n, { r with tokens := rest })
      | none => .error .unknownAnchor
    | tokens => do
      let (found, tokens) := properties tokens
      let tag ← r.fullTag found.tag
      let (number, r) := { r with tokens := tokens }.number found.anchor
      let known := r.anchored.length
      let (content, r) ← content block indentless (found.anchor.isSome || found.tag.isSome) tag
        fuel r
      return r.keep known number content

/-- What follows the anchor and the tag of a node. -/
def content (block indentless marked : Bool) (tag : Option String) :
    Nat → Reader → Except Fault (Node × Reader)
  | 0, _ => .error .tokenOrder
  | fuel + 1, r =>
    match r.tokens with
    | .scalar text style :: rest =>
      .ok (.scalar text style (scalarTag tag), { r with tokens := rest })
    | .flowSequenceStart :: _ => do
      let (items, r) ← flowItems true [] fuel r.drop
      return (.sequence items tag, r)
    | .flowMappingStart :: _ => do
      let (entries, r) ← flowEntries true [] fuel r.drop
      return (.mapping entries tag, r)
    | tokens => do
      match tokens.head?, block, indentless with
      | some .blockEntry, _, true =>
        let (items, r) ← indentlessItems [] fuel r
        return (.sequence items tag, r)
      | some .blockSequenceStart, true, _ =>
        let (items, r) ← blockItems [] fuel r.drop
        return (.sequence items tag, r)
      | some .blockMappingStart, true, _ =>
        let (entries, r) ← blockEntries [] fuel r.drop
        return (.mapping entries tag, r)
      | _, _, _ =>
        if marked then return (.scalar "" .plain tag, r) else .error .tokenOrder

/-- The items of a block sequence, in reverse order so far. -/
def blockItems (done : List Node) : Nat → Reader → Except Fault (List Node × Reader)
  | 0, _ => .error .tokenOrder
  | fuel + 1, r =>
    match r.tokens with
    | .blockEntry :: rest =>
      if endsEntry false rest then blockItems (.absent :: done) fuel r.drop
      else do
        let (item, r) ← node true false fuel r.drop
        blockItems (item :: done) fuel r
    | .blockEnd :: _ => .ok (done.reverse, r.drop)
    | _ => .error .tokenOrder

/-- The items of a sequence that is not indented. -/
def indentlessItems (done : List Node) : Nat → Reader → Except Fault (List Node × Reader)
  | 0, _ => .error .tokenOrder
  | fuel + 1, r =>
    match r.tokens with
    | .blockEntry :: rest =>
      if endsIndentless rest then indentlessItems (.absent :: done) fuel r.drop
      else do
        let (item, r) ← node true false fuel r.drop
        indentlessItems (item :: done) fuel r
    | _ => .ok (done.reverse, r)

/-- The entries of a block mapping. -/
def blockEntries (done : List (Node × Node)) :
    Nat → Reader → Except Fault (List (Node × Node) × Reader)
  | 0, _ => .error .tokenOrder
  | fuel + 1, r =>
    match r.tokens with
    | .key :: rest => do
      let (key, r) ←
        if endsEntry true rest then pure (.absent, r.drop) else node true true fuel r.drop
      let (value, r) ← blockValue fuel r
      blockEntries ((key, value) :: done) fuel r
    | .blockEnd :: _ => .ok (done.reverse, r.drop)
    | _ => .error .tokenOrder

/-- The value of an entry of a block mapping. -/
def blockValue : Nat → Reader → Except Fault (Node × Reader)
  | 0, _ => .error .tokenOrder
  | fuel + 1, r =>
    match r.tokens with
    | .value :: rest =>
      if endsEntry true rest then .ok (.absent, r.drop) else node true true fuel r.drop
    | _ => .ok (.absent, r)

/-- The items of a flow sequence. -/
def flowItems (first : Bool) (done : List Node) :
    Nat → Reader → Except Fault (List Node × Reader)
  | 0, _ => .error .tokenOrder
  | fuel + 1, r => do
    match r.tokens with
    | .flowSequenceEnd :: _ => return (done.reverse, r.drop)
    | token :: _ =>
      if !first && token ≠ .flowEntry then .error .tokenOrder
      else
        let r := if first then r else r.drop
        match r.tokens with
        | .flowSequenceEnd :: _ => return (done.reverse, r.drop)
        | .key :: _ =>
          let (entry, r) ← flowPair fuel r.drop
          flowItems false (.mapping [entry] none :: done) fuel r
        | _ =>
          let (item, r) ← node false false fuel r
          flowItems false (item :: done) fuel r
    | [] => .error .tokenOrder

/-- An entry of a mapping that stands as an item of a flow sequence. -/
def flowPair : Nat → Reader → Except Fault ((Node × Node) × Reader)
  | 0, _ => .error .tokenOrder
  | fuel + 1, r => do
    let (key, r) ←
      match r.tokens with
      | .value :: _ | .flowEntry :: _ | .flowSequenceEnd :: _ => pure (.absent, r.drop)
      | _ => node false false fuel r
    let (value, r) ← flowValue .flowSequenceEnd fuel r
    return ((key, value), r)

/-- The value of an entry inside a flow collection with the given end. -/
def flowValue (closing : Token) : Nat → Reader → Except Fault (Node × Reader)
  | 0, _ => .error .tokenOrder
  | fuel + 1, r =>
    match r.tokens with
    | .value :: rest =>
      match rest with
      | token :: _ =>
        if token = .flowEntry ∨ token = closing then .ok (.absent, r.drop)
        else node false false fuel r.drop
      | [] => .error .tokenOrder
    | _ => .ok (.absent, r)

/-- The entries of a flow mapping. -/
def flowEntries (first : Bool) (done : List (Node × Node)) :
    Nat → Reader → Except Fault (List (Node × Node) × Reader)
  | 0, _ => .error .tokenOrder
  | fuel + 1, r => do
    match r.tokens with
    | .flowMappingEnd :: _ => return (done.reverse, r.drop)
    | token :: _ =>
      if !first && token ≠ .flowEntry then .error .tokenOrder
      else
        let r := if first then r else r.drop
        match r.tokens with
        | .flowMappingEnd :: _ => return (done.reverse, r.drop)
        | .key :: rest =>
          let (key, r) ←
            match rest with
            | .value :: _ | .flowEntry :: _ | .flowMappingEnd :: _ => pure (.absent, r.drop)
            | _ => node false false fuel r.drop
          let (value, r) ← flowValue .flowMappingEnd fuel r
          flowEntries false ((key, value) :: done) fuel r
        | _ =>
          let (key, r) ← node false false fuel r
          flowEntries false ((key, .absent) :: done) fuel r
    | [] => .error .tokenOrder

end

end Reader

/-! ### Documents -/

/-- A document: its node, and the nodes that its aliases stand for. -/
structure Document where
  root : Node
  anchored : List (Nat × Node)

namespace Document

/-- The handles that every document knows. -/
def knownHandles : List (String × String) :=
  [("!", "!"), ("!!", "tag:yaml.org,2002:")]

/-- The directives in front of a document: the handles they add, whether there are any, and the
tokens after them. -/
def directives (version : Bool) (handles : List (String × String)) :
    List Token → Except Fault (List (String × String) × Bool × List Token)
  | .versionDirective major minor :: rest =>
    if version || major ≠ 1 || (minor ≠ 1 && minor ≠ 2) then .error .directive
    else do
      let (handles, _, rest) ← directives true handles rest
      return (handles, true, rest)
  | .tagDirective handle lead :: rest =>
    if (handles.lookup handle).isSome then .error .directive
    else do
      let (handles, _, rest) ← directives version (handles ++ [(handle, lead)]) rest
      return (handles, true, rest)
  | rest => .ok (handles, false, rest)

/-- Whether a document without content ends here. -/
def isEmptyAt : List Token → Bool
  | .versionDirective _ _ :: _ | .tagDirective _ _ :: _ | .documentStart :: _
  | .documentEnd :: _ | .streamEnd :: _ => true
  | _ => false

/-- The content of a document and the tokens after it. -/
def content (handles : List (String × String)) (tokens : List Token) :
    Except Fault (Document × List Token) := do
  if isEmptyAt tokens then return (⟨.absent, []⟩, tokens)
  else
    let (root, r) ← Reader.node true false (4 * tokens.length + 8) ⟨tokens, handles, .nil, []⟩
    return (⟨root, r.anchored⟩, r.tokens)

/-- The one document of a list of tokens, if there is any.  The first document needs no marker. -/
def ofTokens (tokens : List Token) : Except Fault (Option Document) := do
  match tokens with
  | [.streamEnd] => return none
  | tokens =>
    let (added, any, rest) ← directives false [] tokens
    let handles := added ++ knownHandles.filter fun known => (added.lookup known.1).isNone
    let (document, rest) ←
      match rest with
      | .documentStart :: rest => content handles rest
      | rest => if any || isEmptyAt rest then .error .tokenOrder else content handles rest
    let rest := rest.dropWhile (· = .documentEnd)
    match rest with
    | [.streamEnd] => return some document
    | _ => .error .manyDocuments

/-- The one document of a text. -/
def ofText (text : String) : Except Fault (Option Document) := do ofTokens (← Token.scan text)

end Document

end TransitionRules.Yaml
