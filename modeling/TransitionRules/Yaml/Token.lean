/-
TransitionRules/Yaml/Token.lean

The tokens of a YAML stream and the cursor that moves over its characters.
-/

namespace TransitionRules.Yaml

/-- Why a text is no YAML stream, or not one that can be read as data. -/
inductive Fault where
  /-- A character that may not stand in a stream. -/
  | forbiddenCharacter
  /-- A character that begins no token. -/
  | strayCharacter
  | directive
  | anchor
  | unknownAnchor
  | tag
  /-- A mapping key without its colon, or an indicator where none may stand. -/
  | misplaced
  | indentation
  | quotation
  | escape
  | blockScalar
  | plainScalar
  /-- Tokens in an order that makes no node. -/
  | tokenOrder
  | manyDocuments
  | tooDeep
  /-- Aliases that would make the data far larger than its text. -/
  | tooManyAliases
  /-- A scalar that its tag does not allow, or a number without a place in data. -/
  | scalar
  | key
  | emptyStream
  deriving DecidableEq, Repr

/-- How a scalar is written. -/
inductive Style where
  | plain
  /-- In quotes, or as a block. -/
  | marked
  deriving DecidableEq, Repr

/-- The tokens of a stream. -/
inductive Token where
  | versionDirective (major minor : Nat)
  | tagDirective (handle lead : String)
  | documentStart
  | documentEnd
  | blockSequenceStart
  | blockMappingStart
  | blockEnd
  | flowSequenceStart
  | flowSequenceEnd
  | flowMappingStart
  | flowMappingEnd
  | blockEntry
  | flowEntry
  | key
  | value
  | alias (name : String)
  | anchor (name : String)
  | tag (handle suffix : String)
  | scalar (text : String) (style : Style)
  | streamEnd
  deriving DecidableEq, Repr

/-! ### Characters -/

/-- Line breaks. -/
def isBreak (c : Char) : Bool :=
  c = '\n' || c = '\r' || c.toNat = 0x85 || c.toNat = 0x2028 || c.toNat = 0x2029

/-- Blanks within a line. -/
def isBlank (c : Char) : Bool := c = ' ' || c = '\t'

/-- Letters of names. -/
def isNameChar (c : Char) : Bool := c.isAlphanum || c = '_' || c = '-'

/-- Characters that may stand in a stream. -/
def isAllowed (c : Char) : Bool :=
  let n := c.toNat
  n = 9 || n = 10 || n = 13 || (0x20 ≤ n && n ≤ 0x7E) || n = 0x85 || (0xA0 ≤ n && n ≤ 0xFFFD) ||
    0x10000 ≤ n

/-- Whether a word ends here: at a blank, a line break or the end. -/
def atWordEnd : List Char → Bool
  | [] => true
  | c :: _ => isBlank c || isBreak c

/-- Whether a line ends here. -/
def atLineEnd : List Char → Bool
  | [] => true
  | c :: _ => isBreak c

/-! ### The cursor -/

/-- A place in the stream: what follows, and where it is. -/
structure Cursor where
  rest : List Char
  index : Nat := 0
  line : Nat := 0
  column : Nat := 0

namespace Cursor

/-- The place so many characters further on the same line. -/
def skip (cursor : Cursor) (count : Nat) : Cursor :=
  { cursor with
    rest := cursor.rest.drop count
    index := cursor.index + count
    column := cursor.column + count }

/-- The longest run of characters of a kind, and the place after it. -/
def span (cursor : Cursor) (holds : Char → Bool) : List Char × Cursor :=
  let run := cursor.rest.takeWhile holds
  (run, cursor.skip run.length)

/-- The place after a run of characters of a kind. -/
def skipWhile (cursor : Cursor) (holds : Char → Bool) : Cursor := (cursor.span holds).2

/-- The start of the next line. -/
def newLine (cursor : Cursor) (count : Nat) : Cursor where
  rest := cursor.rest.drop count
  index := cursor.index + count
  line := cursor.line + 1
  column := 0

/-- The line break here, as it counts in a scalar, and the place after it.  Without a line break
the place stays. -/
def lineBreak (cursor : Cursor) : List Char × Cursor :=
  match cursor.rest with
  | '\r' :: '\n' :: _ => (['\n'], cursor.newLine 2)
  | c :: _ =>
    if c.toNat = 0x2028 || c.toNat = 0x2029 then ([c], cursor.newLine 1)
    else if isBreak c then (['\n'], cursor.newLine 1)
    else ([], cursor)
  | [] => ([], cursor)

/-- The place after a comment, if there is one. -/
def skipComment (cursor : Cursor) : Cursor :=
  match cursor.rest with
  | '#' :: _ => cursor.skipWhile fun c => !isBreak c
  | _ => cursor

/-- Whether the line begins with a document marker. -/
def atMarker (cursor : Cursor) : Bool :=
  cursor.column = 0 &&
    match cursor.rest with
    | '-' :: '-' :: '-' :: rest | '.' :: '.' :: '.' :: rest => atWordEnd rest
    | _ => false

/-- The place after the rest of a line that may hold a comment only. -/
def finishLine (cursor : Cursor) (fault : Fault) : Except Fault Cursor :=
  let cursor := (cursor.skipWhile isBlank).skipComment
  if atLineEnd cursor.rest then .ok cursor.lineBreak.2 else .error fault

end Cursor

end TransitionRules.Yaml
