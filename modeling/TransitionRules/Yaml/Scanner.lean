/-
TransitionRules/Yaml/Scanner.lean

Cutting a stream into tokens.  Block collections have no brackets: the scanner opens one where a
line is indented further than the lines around it and closes it where the indentation ends.  A
mapping key is recognised by the colon after it, so the scanner remembers where a key could have
begun and puts the key's token there once the colon is found.
-/
import TransitionRules.Yaml.Scalar

namespace TransitionRules.Yaml

/-- A place where a key could have begun. -/
structure KeyPlace where
  /-- A key has to begin here, since a block mapping goes on at this column. -/
  required : Bool
  /-- The number of tokens before it. -/
  position : Nat
  index : Nat
  line : Nat
  column : Nat

/-- Where scanning stands. -/
structure Scanner where
  cursor : Cursor
  /-- The tokens so far, the last one first. -/
  tokens : List Token := []
  /-- The column of the innermost block collection, or -1 outside of all. -/
  indent : Int := -1
  /-- The columns of the block collections around it. -/
  outer : List Int := []
  flowDepth : Nat := 0
  /-- For each flow collection that is open, and for what is around them, where a key could have
  begun. -/
  keys : List (Option KeyPlace) := [none]
  /-- Whether a key can begin here. -/
  keyAllowed : Bool := true
  ended : Bool := false

namespace Scanner

/-- One more token. -/
def emit (s : Scanner) (token : Token) : Scanner := { s with tokens := token :: s.tokens }

/-- A token before the last `back` ones. -/
def emitBefore (s : Scanner) (back : Nat) (token : Token) : Scanner :=
  { s with tokens := s.tokens.take back ++ token :: s.tokens.drop back }

/-- Moves on by so many characters of the line. -/
def skip (s : Scanner) (count : Nat) : Scanner := { s with cursor := s.cursor.skip count }

/-- Whether the scanner is inside a flow collection. -/
def inFlow (s : Scanner) : Bool := s.flowDepth ≠ 0

/-! ### Blanks and comments -/

/-- The place of the next token, and whether a key can begin there.  A tab counts as a blank only
where no key can begin. -/
def nextToken (inFlow : Bool) : Nat → Bool → Cursor → Bool × Cursor
  | 0, keyAllowed, cursor => (keyAllowed, cursor)
  | fuel + 1, keyAllowed, cursor =>
    let cursor := cursor.skipWhile fun c => c = ' ' || ((inFlow || !keyAllowed) && c = '\t')
    let cursor := cursor.skipComment
    match cursor.rest with
    | c :: _ =>
      if isBreak c then nextToken inFlow fuel (keyAllowed || !inFlow) cursor.lineBreak.2
      else (keyAllowed, cursor)
    | [] => (keyAllowed, cursor)

/-! ### Indentation -/

/-- Closes the block collections that are indented further than a column. -/
def unroll (column : Int) : List Int → Scanner → Scanner
  | [], s => s
  | outer :: rest, s =>
    if column < s.indent then
      unroll column rest { s.emit .blockEnd with indent := outer, outer := rest }
    else s

/-- Closes the block collections that are indented further than a column, outside of flow
collections. -/
def unrollTo (s : Scanner) (column : Int) : Scanner :=
  if s.inFlow then s else unroll column s.outer s

/-- Opens a block collection before the last `back` tokens if a column is indented further than
the collection around it. -/
def roll (s : Scanner) (column : Nat) (back : Nat) (token : Token) : Scanner :=
  if !s.inFlow && s.indent < column then
    { s.emitBefore back token with indent := column, outer := s.indent :: s.outer }
  else s

/-! ### Places of keys -/

/-- Forgets the place where the innermost key could have begun. -/
def forgetKey (s : Scanner) : Except Fault Scanner :=
  match s.keys with
  | some place :: rest =>
    if place.required then .error .misplaced else .ok { s with keys := none :: rest }
  | _ => .ok s

/-- Remembers that a key could begin here. -/
def rememberKey (s : Scanner) : Except Fault Scanner :=
  if s.keyAllowed then do
    let s ← s.forgetKey
    let place : KeyPlace := {
      required := !s.inFlow && s.indent = s.cursor.column
      position := s.tokens.length
      index := s.cursor.index
      line := s.cursor.line
      column := s.cursor.column }
    return { s with keys := some place :: s.keys.drop 1 }
  else .ok s

/-- A key has to be found within its line and within so many characters. -/
def keyReach : Nat := 1024

/-- Forgets the places whose keys are out of reach by now. -/
def dropStale (cursor : Cursor) : List (Option KeyPlace) → Except Fault (List (Option KeyPlace))
  | [] => .ok []
  | none :: rest => return none :: (← dropStale cursor rest)
  | some place :: rest =>
    if place.line < cursor.line || place.index + keyReach < cursor.index then
      if place.required then .error .misplaced else return none :: (← dropStale cursor rest)
    else return some place :: (← dropStale cursor rest)

/-! ### Directives, anchors and tags -/

/-- A number of a version. -/
def readNumber (cursor : Cursor) : Except Fault (Nat × Cursor) :=
  let (digits, cursor) := cursor.span Char.isDigit
  if digits.isEmpty || 9 < digits.length then .error .directive
  else .ok (digits.foldl (fun n c => 10 * n + (c.toNat - 48)) 0, cursor)

/-- The handle of a tag: an exclamation mark, or a name between two of them. -/
def readHandle (directive : Bool) (cursor : Cursor) : Except Fault (List Char × Cursor) :=
  match cursor.rest with
  | '!' :: _ =>
    let (name, cursor) := (cursor.skip 1).span isNameChar
    match cursor.rest with
    | '!' :: _ => .ok ('!' :: name ++ ['!'], cursor.skip 1)
    | _ => if directive && !name.isEmpty then .error .tag else .ok ('!' :: name, cursor)
  | _ => .error .tag

/-- Whether a character may stand in a tag; some may do so only between angle brackets. -/
def isTagChar (verbatim : Bool) (c : Char) : Bool :=
  isNameChar c || ";/?:@&=+$.%!~*'()".toList.contains c || (verbatim && (c = ',' || c = '[' || c = ']'))

/-- Decodes the escapes of a tag: percent signs with two hexadecimal digits each, which make the
bytes of characters. -/
def decodeTag : Nat → List Char → Except Fault (List UInt8)
  | 0, _ => .ok []
  | _ + 1, [] => .ok []
  | fuel + 1, '%' :: rest =>
    match rest with
    | a :: b :: rest =>
      match hexValue? a, hexValue? b with
      | some a, some b => do return UInt8.ofNat (16 * a + b) :: (← decodeTag fuel rest)
      | _, _ => .error .tag
    | _ => .error .tag
  | fuel + 1, c :: rest => do return c.toString.toUTF8.toList ++ (← decodeTag fuel rest)

/-- The text of a tag, at least one character long together with what was read before. -/
def readTagText (verbatim : Bool) (lead : List Char) (cursor : Cursor) :
    Except Fault (String × Cursor) := do
  let (text, cursor) := cursor.span (isTagChar verbatim)
  if text.isEmpty && lead.isEmpty then .error .tag
  else
    let bytes ← decodeTag (text.length + 1) text
    match String.fromUTF8? ⟨bytes.toArray⟩ with
    | some text => return (String.ofList (lead.drop 1) ++ text, cursor)
    | none => .error .tag

/-- A tag: between angle brackets, with a handle, or local. -/
def readTag (inFlow : Bool) (cursor : Cursor) : Except Fault (Token × Cursor) := do
  let (token, cursor) ←
    match cursor.rest with
    | '!' :: '<' :: _ => do
      let (text, cursor) ← readTagText true [] (cursor.skip 2)
      match cursor.rest with
      | '>' :: _ => pure (Token.tag "" text, cursor.skip 1)
      | _ => .error .tag
    | _ => do
      let (handle, cursor) ← readHandle false cursor
      if 2 ≤ handle.length && handle.getLast? = some '!' then
        let (suffix, cursor) ← readTagText false [] cursor
        pure (Token.tag (String.ofList handle) suffix, cursor)
      else
        let (suffix, cursor) ← readTagText false handle cursor
        pure (if suffix.isEmpty then Token.tag "" "!" else Token.tag "!" suffix, cursor)
  match cursor.rest with
  | ',' :: _ => if inFlow then return (token, cursor) else .error .tag
  | rest => if atWordEnd rest then return (token, cursor) else .error .tag

/-- The name of an anchor or an alias. -/
def readAnchor (cursor : Cursor) : Except Fault (String × Cursor) :=
  let (name, cursor) := cursor.span isNameChar
  let ends := atWordEnd cursor.rest || (cursor.rest.head?.any fun c =>
    "?:,]\x7d%@\x60".toList.contains c)
  if name.isEmpty || !ends then .error .anchor else .ok (String.ofList name, cursor)

/-- A directive after its percent sign. -/
def readDirective (cursor : Cursor) : Except Fault (Token × Cursor) := do
  let (name, cursor) := cursor.span isNameChar
  if !atWordEnd cursor.rest then .error .directive
  else
    let cursor := cursor.skipWhile isBlank
    let (token, cursor) ←
      match String.ofList name with
      | "YAML" => do
        let (major, cursor) ← readNumber cursor
        match cursor.rest with
        | '.' :: _ =>
          let (minor, cursor) ← readNumber (cursor.skip 1)
          pure (Token.versionDirective major minor, cursor)
        | _ => .error .directive
      | "TAG" => do
        let (handle, cursor) ← readHandle true cursor
        if !cursor.rest.head?.any isBlank then .error .directive
        else
          let (lead, cursor) ← readTagText true [] (cursor.skipWhile isBlank)
          if !atWordEnd cursor.rest then .error .directive
          else pure (Token.tagDirective (String.ofList handle) lead, cursor)
      | _ => .error .directive
    return (token, ← cursor.finishLine .directive)

/-! ### Tokens -/

/-- The end of the stream. -/
def finish (s : Scanner) : Except Fault Scanner := do
  let s := s.unrollTo (-1)
  let s ← s.forgetKey
  return { s.emit .streamEnd with keyAllowed := false, ended := true }

/-- A directive. -/
def directive (s : Scanner) : Except Fault Scanner := do
  let s := s.unrollTo (-1)
  let s ← s.forgetKey
  let (token, cursor) ← readDirective (s.cursor.skip 1)
  return { s.emit token with cursor := cursor, keyAllowed := false }

/-- The marker of a document's start or end. -/
def marker (s : Scanner) (token : Token) : Except Fault Scanner := do
  let s := s.unrollTo (-1)
  let s ← s.forgetKey
  return { (s.emit token).skip 3 with keyAllowed := false }

/-- The start of a flow collection. -/
def flowStart (s : Scanner) (token : Token) : Except Fault Scanner := do
  let s ← s.rememberKey
  return { (s.emit token).skip 1 with
    keys := none :: s.keys, flowDepth := s.flowDepth + 1, keyAllowed := true }

/-- The end of a flow collection. -/
def flowEnd (s : Scanner) (token : Token) : Except Fault Scanner := do
  let s ← s.forgetKey
  let s := (s.emit token).skip 1
  let s := if s.inFlow then { s with keys := s.keys.drop 1, flowDepth := s.flowDepth - 1 } else s
  return { s with keyAllowed := false }

/-- The comma between entries of a flow collection. -/
def flowEntry (s : Scanner) : Except Fault Scanner := do
  let s ← s.forgetKey
  return { (s.emit .flowEntry).skip 1 with keyAllowed := true }

/-- The hyphen before an entry of a block sequence. -/
def blockEntry (s : Scanner) : Except Fault Scanner := do
  if !s.inFlow && !s.keyAllowed then .error .misplaced
  else
    let s ← (s.roll s.cursor.column 0 .blockSequenceStart).forgetKey
    return { (s.emit .blockEntry).skip 1 with keyAllowed := true }

/-- The question mark before a key. -/
def explicitKey (s : Scanner) : Except Fault Scanner := do
  if !s.inFlow && !s.keyAllowed then .error .misplaced
  else
    let s ← (s.roll s.cursor.column 0 .blockMappingStart).forgetKey
    return { (s.emit .key).skip 1 with keyAllowed := !s.inFlow }

/-- The colon before a value. -/
def value (s : Scanner) : Except Fault Scanner :=
  match s.keys with
  | some place :: rest =>
    let back := s.tokens.length - place.position
    let s := (s.emitBefore back .key).roll place.column (back + 1) .blockMappingStart
    .ok { (s.emit .value).skip 1 with keys := none :: rest, keyAllowed := false }
  | _ =>
    if !s.inFlow && !s.keyAllowed then .error .misplaced
    else
      let s := s.roll s.cursor.column 0 .blockMappingStart
      .ok { (s.emit .value).skip 1 with keyAllowed := !s.inFlow }

/-- An anchor or an alias. -/
def anchor (s : Scanner) (token : String → Token) : Except Fault Scanner := do
  let s ← s.rememberKey
  let (name, cursor) ← readAnchor (s.cursor.skip 1)
  return { s.emit (token name) with cursor := cursor, keyAllowed := false }

/-- A tag. -/
def tag (s : Scanner) : Except Fault Scanner := do
  let s ← s.rememberKey
  let (token, cursor) ← readTag s.inFlow s.cursor
  return { s.emit token with cursor := cursor, keyAllowed := false }

/-- A block scalar. -/
def blockScalar (s : Scanner) (folded : Bool) : Except Fault Scanner := do
  let s ← s.forgetKey
  let (text, cursor) ← readBlock folded s.indent (s.cursor.skip 1)
  return { s.emit (.scalar (String.ofList text) .marked) with
    cursor := cursor, keyAllowed := true }

/-- A quoted scalar. -/
def quotedScalar (s : Scanner) (quote : Char) : Except Fault Scanner := do
  let s ← s.rememberKey
  let (text, cursor) ← readQuoted quote [] {} (s.cursor.rest.length + 1) (s.cursor.skip 1)
  return { s.emit (.scalar (String.ofList text) .marked) with
    cursor := cursor, keyAllowed := false }

/-- A plain scalar. -/
def plainScalar (s : Scanner) : Except Fault Scanner := do
  let s ← s.rememberKey
  let (text, cursor, broken) ←
    readPlain s.inFlow (s.indent + 1).toNat [] {} (s.cursor.rest.length + 1) s.cursor
  return { s.emit (.scalar (String.ofList text) .plain) with
    cursor := cursor, keyAllowed := broken }

/-- Characters that begin no plain scalar. -/
def isIndicator (c : Char) : Bool :=
  "-?:,[]\x7b\x7d#&*!|>'\"%@\x60".toList.contains c

/-- The token that begins with a character. -/
def token (s : Scanner) (c : Char) (rest : List Char) : Except Fault Scanner :=
  let wordEnds := atWordEnd rest
  match c with
  | '[' => s.flowStart .flowSequenceStart
  | '\x7b' => s.flowStart .flowMappingStart
  | ']' => s.flowEnd .flowSequenceEnd
  | '\x7d' => s.flowEnd .flowMappingEnd
  | ',' => s.flowEntry
  | '*' => s.anchor .alias
  | '&' => s.anchor .anchor
  | '!' => s.tag
  | '\'' => s.quotedScalar '\''
  | '"' => s.quotedScalar '"'
  | '-' => if wordEnds then s.blockEntry else s.plainScalar
  | '?' => if s.inFlow || wordEnds then s.explicitKey else s.plainScalar
  | ':' => if s.inFlow || wordEnds then s.value else s.plainScalar
  | '|' => if s.inFlow then .error .strayCharacter else s.blockScalar false
  | '>' => if s.inFlow then .error .strayCharacter else s.blockScalar true
  | c => if isBlank c || isIndicator c then .error .strayCharacter else s.plainScalar

/-- The next token and what comes with it. -/
def step (s : Scanner) : Except Fault Scanner := do
  let (keyAllowed, cursor) := nextToken s.inFlow (s.cursor.rest.length + 1) s.keyAllowed s.cursor
  let keys ← dropStale cursor s.keys
  let s := { s with cursor := cursor, keys := keys, keyAllowed := keyAllowed }
  let s := s.unrollTo s.cursor.column
  match s.cursor.rest with
  | [] => s.finish
  | c :: rest =>
    if s.cursor.column = 0 && c = '%' then s.directive
    else if s.cursor.atMarker then s.marker (if c = '-' then .documentStart else .documentEnd)
    else s.token c rest

/-- Scans to the end of the stream.  Every step takes at least one character or ends. -/
def run : Nat → Scanner → Except Fault Scanner
  | 0, s => .ok s
  | fuel + 1, s => if s.ended then .ok s else do run fuel (← s.step)

end Scanner

/-- The place where scanning a text begins: after a byte order mark, which takes up a column. -/
def Cursor.start (chars : List Char) : Cursor :=
  let cursor : Cursor := { rest := chars }
  if chars.head?.any (·.toNat = 0xFEFF) then cursor.skip 1 else cursor

/-- The tokens of a text. -/
def Token.scan (text : String) : Except Fault (List Token) := do
  let chars := text.toList
  if chars.all isAllowed then
    let final ← Scanner.run (chars.length + 2) { cursor := Cursor.start chars }
    return final.tokens.reverse
  else .error .forbiddenCharacter

end TransitionRules.Yaml
