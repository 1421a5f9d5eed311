/-
TransitionRules/Pattern/Parser.lean

Reading a written pattern.  The reader keeps a stack of the groups that are still open; what has
been read in the innermost group is a list of alternatives that are done and the pieces of the one
being read.  Flags set inside a group hold to its end.

A pattern may nest at most `depthLimit` deep, and its size when all counted repetitions are
written out is limited too (`sizeLimit`).
-/
import TransitionRules.Pattern.Class

namespace TransitionRules.Pattern

/-! ### Limits -/

/-- How deep groups, repetitions, sets and sequences may nest. -/
def depthLimit : Nat := 250

/-- The greatest size of a pattern, in bytes of an automaton that has one state a character. -/
def sizeLimit : Nat := 10485760

/-- The size of a property's part of an automaton. -/
def Property.size : Property → Nat
  | .any | .ascii | .asciiHexDigit | .space | .separator => 600
  | .digit => 4000
  | .category .decimalNumber => 4000
  | _ => 20000

/-- The size of a set's part of an automaton. -/
def CharSet.size : CharSet → Nat
  | .none => 32
  | .range first last => if last < 128 then 32 else if first = last then 64 else 160
  | .property p => p.size
  | .union a b | .intersection a b | .difference a b | .symmetricDifference a b => a.size + b.size
  | .complement a => a.size + 500
  | .foldCase a => 2 * a.size

/-- The size of a pattern with all repetitions written out. -/
def size : Pattern → Nat
  | .empty | .assertion _ _ => 32
  | .character set => set.size
  | .sequence first second => first.size + second.size
  | .choice first second => first.size + second.size + 32
  | .repetition p least none => p.size * max least 1 + 40
  | .repetition p least (some most) => p.size * most + 40 * (most - least)

/-! ### Pieces -/

/-- A part that has been read, how deep it is, and whether it can be repeated. -/
structure Piece where
  pattern : Pattern
  depth : Nat := 0
  repeatable : Bool := true

/-- Nothing, which cannot be repeated. -/
def Piece.nothing : Piece := ⟨.empty, 0, false⟩

/-- How deep a list of pieces is together. -/
def piecesDepth (pieces : List Piece) : Nat :=
  pieces.foldl (fun depth piece => max depth piece.depth) 0 + 1

/-- Pieces one after the other. -/
def sequenceOf : List Piece → Piece
  | [] => .nothing
  | [piece] => piece
  | first :: rest =>
    ⟨rest.foldl (fun done piece => .sequence done piece.pattern) first.pattern,
      piecesDepth (first :: rest), true⟩

/-- Pieces of which one is taken. -/
def choiceOf : List Piece → Piece
  | [] => .nothing
  | [piece] => piece
  | first :: rest =>
    ⟨rest.foldl (fun done piece => .choice done piece.pattern) first.pattern,
      piecesDepth (first :: rest), true⟩

/-- An alternative: the pieces are in reverse order. -/
structure Branch where
  alternatives : List Piece := []
  pieces : List Piece := []

namespace Branch

/-- One more piece. -/
def push (branch : Branch) (piece : Piece) : Branch :=
  { branch with pieces := piece :: branch.pieces }

/-- The next alternative begins. -/
def next (branch : Branch) : Branch :=
  ⟨sequenceOf branch.pieces.reverse :: branch.alternatives, []⟩

/-- All alternatives together. -/
def close (branch : Branch) : Piece := choiceOf branch.next.alternatives.reverse

end Branch

/-! ### Characters and conditions -/

/-- The piece of a character. -/
def characterPiece (flags : Flags) (c : Char) (byte : Bool) : Except Fault Piece :=
  if !flags.unicode && byte && 128 ≤ c.toNat then .error .partialCharacter
  else .ok ⟨.character (flags.fold (.range c.toNat c.toNat)), 0, true⟩

/-- The piece of a set, a character or a condition. -/
def atomPiece (flags : Flags) : Atom → Except Fault Piece
  | .character c byte => characterPiece flags c byte
  | .set set => .ok ⟨.character set, 0, true⟩
  | .assertion a => .ok ⟨.assertion a flags.unicode, 0, true⟩

/-- The piece of `.`. -/
def anyPiece (flags : Flags) : Except Fault Piece :=
  if !flags.unicode then .error .partialCharacter
  else if flags.dotAll then .ok ⟨.character (.property .any), 0, true⟩
  else if flags.crlf then
    .ok ⟨.character (.complement (.union (.range 10 10) (.range 13 13))), 0, true⟩
  else .ok ⟨.character (.complement (.range 10 10)), 0, true⟩

/-- The piece of `^`. -/
def startPiece (flags : Flags) : Piece :=
  let a := if !flags.multiLine then Assertion.textStart
    else if flags.crlf then .lineStartCrlf else .lineStart
  ⟨.assertion a flags.unicode, 0, true⟩

/-- The piece of `$`. -/
def endPiece (flags : Flags) : Piece :=
  let a := if !flags.multiLine then Assertion.textEnd
    else if flags.crlf then .lineEndCrlf else .lineEnd
  ⟨.assertion a flags.unicode, 0, true⟩

/-! ### Repetitions -/

/-- The text after a mark that makes a repetition lazy or greedy, which decides nothing here. -/
def skipMark : List Char → List Char
  | '?' :: rest => rest
  | text => text

/-- A decimal number with blanks on either side, if there is one. -/
def readCount (flags : Flags) (text : List Char) : Option Nat × List Char :=
  let text := text.dropWhile Text.isWhiteSpace
  let digits := text.takeWhile Char.isDigit
  let rest := (flags.skip (text.dropWhile Char.isDigit)).dropWhile Text.isWhiteSpace
  if digits.isEmpty then (none, rest)
  else (some (digits.foldl (fun n c => 10 * n + (c.toNat - 48)) 0), rest)

/-- The bounds of a counted repetition, after its brace. -/
def readBounds (flags : Flags) (text : List Char) :
    Except Fault ((Nat × Option Nat) × List Char) := do
  let (least, rest) := readCount flags (← flags.more .repetition text)
  let least ←
    match least with
    | some least => if least < 0x100000000 then pure least else .error .repetition
    | none => .error .repetition
  let (bounds, rest) ←
    match rest with
    | ',' :: rest => do
      match ← flags.more .repetition rest with
      | '\x7d' :: rest => pure ((least, none), '\x7d' :: rest)
      | rest =>
        match readCount flags rest with
        | (some most, rest) =>
          if most < 0x100000000 ∧ least ≤ most then pure ((least, some most), rest)
          else .error .repetition
        | (none, _) => .error .repetition
    | rest => pure ((least, some least), rest)
  match rest with
  | '\x7d' :: rest => return (bounds, skipMark (flags.skip rest))
  | _ => .error .repetition

/-- The last piece of a branch, repeated. -/
def repeatLast (branch : Branch) (least : Nat) (most : Option Nat) : Except Fault Branch :=
  match branch.pieces with
  | [] => .error .repetition
  | piece :: pieces =>
    if piece.repeatable then
      .ok { branch with
        pieces := ⟨.repetition piece.pattern least most, piece.depth + 1, true⟩ :: pieces }
    else .error .repetition

/-! ### Groups -/

/-- Sets the flag of a letter. -/
def Flags.set? (flags : Flags) (letter : Char) (value : Bool) : Option Flags :=
  match letter with
  | 'i' => some { flags with caseless := value }
  | 'm' => some { flags with multiLine := value }
  | 's' => some { flags with dotAll := value }
  | 'R' => some { flags with crlf := value }
  | 'u' => some { flags with unicode := value }
  | 'x' => some { flags with verbose := value }
  | 'U' => some flags
  | _ => none

/-- Sets the flags of a list of letters; a hyphen, which stands at most once and not at the end,
turns to clearing them, and no letter is repeated. -/
def Flags.setAll (flags : Flags) (seen : List Char) (value : Bool) :
    List Char → Except Fault Flags
  | [] => .ok flags
  | '-' :: rest =>
    if value && !rest.isEmpty then flags.setAll seen false rest else .error .flags
  | c :: rest =>
    match flags.set? c value with
    | some flags => if seen.contains c then .error .flags else flags.setAll (c :: seen) value rest
    | none => .error .flags

/-- Whether a character may stand in the name of a group. -/
def isNameChar (first : Bool) (c : Char) : Bool :=
  c = '_' ∨ Property.holds c .alphabetic ∨
    (!first ∧ (c = '.' ∨ c = '[' ∨ c = ']' ∨ Property.holds c .number))

/-- The name of a group, up to the angle bracket after it. -/
def readName (text : List Char) : Except Fault (String × List Char) :=
  let name := text.takeWhile (· ≠ '>')
  match text.dropWhile (· ≠ '>'), name with
  | '>' :: rest, first :: more =>
    if isNameChar true first && more.all (isNameChar false) then .ok (String.ofList name, rest)
    else .error .groupName
  | _, _ => .error .groupName

/-- A group that is still open: the branch around it and the flags to go back to. -/
structure OpenGroup where
  outer : Branch
  flags : Flags

/-- What has been read so far. -/
structure Progress where
  groups : List OpenGroup := []
  branch : Branch := {}
  flags : Flags := {}
  names : List String := []

namespace Progress

/-- A group begins. -/
def enter (progress : Progress) (flags : Flags) : Progress :=
  { progress with
    groups := ⟨progress.branch, progress.flags⟩ :: progress.groups, branch := {}, flags := flags }

/-- A group ends. -/
def leave (progress : Progress) : Except Fault Progress :=
  match progress.groups with
  | [] => .error .group
  | group :: groups =>
    let inner := progress.branch.close
    .ok { progress with
      groups := groups, flags := group.flags,
      branch := group.outer.push ⟨inner.pattern, inner.depth + 1, true⟩ }

/-- One more piece. -/
def push (progress : Progress) (piece : Piece) : Progress :=
  { progress with branch := progress.branch.push piece }

/-- A group with a name begins. -/
def enterNamed (progress : Progress) (text : List Char) :
    Except Fault (Progress × List Char) := do
  let (name, rest) ← readName text
  if progress.names.contains name then .error .groupName
  else return ({ progress.enter progress.flags with names := name :: progress.names }, rest)

/-- What an opening parenthesis begins: a group, or flags for the rest of the group around it. -/
def openGroup (progress : Progress) (text : List Char) :
    Except Fault (Progress × List Char) := do
  match progress.flags.skip text with
  | '?' :: '=' :: _ | '?' :: '!' :: _ | '?' :: '<' :: '=' :: _ | '?' :: '<' :: '!' :: _ =>
    .error .unsupported
  | '?' :: 'P' :: '<' :: rest | '?' :: '<' :: rest => progress.enterNamed rest
  | '?' :: rest =>
    let letters := rest.takeWhile fun c => c ≠ ':' ∧ c ≠ ')'
    match rest.dropWhile fun c => c ≠ ':' ∧ c ≠ ')' with
    | ':' :: rest => return (progress.enter (← progress.flags.setAll [] true letters), rest)
    | ')' :: rest =>
      if letters.isEmpty then .error .flags
      else
        return ({ progress.push .nothing with
          flags := ← progress.flags.setAll [] true letters }, rest)
    | _ => .error .flags
  | rest => return (progress.enter progress.flags, rest)

/-- What the next character of a pattern begins. -/
def step (progress : Progress) (c : Char) (rest : List Char) :
    Except Fault (Progress × List Char) := do
  let flags := progress.flags
  let repeated (least : Nat) (most : Option Nat) : Except Fault (Progress × List Char) := do
    return ({ progress with branch := ← repeatLast progress.branch least most }, skipMark rest)
  match c with
  | '(' => progress.openGroup rest
  | ')' => return (← progress.leave, rest)
  | '|' => return ({ progress with branch := progress.branch.next }, rest)
  | '[' =>
    let (set, depth, rest) ← readBrackets flags rest
    return (progress.push ⟨.character set, depth, true⟩, rest)
  | '?' => repeated 0 (some 1)
  | '*' => repeated 0 none
  | '+' => repeated 1 none
  | '\x7b' =>
    let ((least, most), rest) ← readBounds flags rest
    return ({ progress with branch := ← repeatLast progress.branch least most }, rest)
  | '\\' =>
    let (atom, rest) ← readEscape flags rest
    return (progress.push (← atomPiece flags atom), rest)
  | '.' => return (progress.push (← anyPiece flags), rest)
  | '^' => return (progress.push (startPiece flags), rest)
  | '$' => return (progress.push (endPiece flags), rest)
  | c => return (progress.push (← characterPiece flags c false), rest)

/-- Reads on to the end of the text; every step takes at least one character, so the length of the
text is fuel enough. -/
def finish (progress : Progress) : Nat → List Char → Except Fault Progress
  | 0, _ => .ok progress
  | fuel + 1, text =>
    match progress.flags.skip text with
    | [] => .ok progress
    | c :: rest => do
      let (progress, rest) ← progress.step c rest
      progress.finish fuel rest

end Progress

/-- Reads a written pattern. -/
def parse (source : String) : Except Fault Pattern := do
  let text := source.toList
  let progress ← ({} : Progress).finish (text.length + 1) text
  if !progress.groups.isEmpty then .error .group
  else
    let whole := progress.branch.close
    if depthLimit < whole.depth then .error .tooDeep
    else if sizeLimit < whole.pattern.size then .error .tooLarge
    else return whole.pattern

end TransitionRules.Pattern
