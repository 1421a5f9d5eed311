/-
TransitionRules/Yaml/Scalar.lean

Reading the scalars of a stream: in quotes, plain, or as a block.  A line break between two words
of a quoted or plain scalar counts as a blank, and every further one as a line break.
-/
import TransitionRules.Yaml.Token

namespace TransitionRules.Yaml

/-! ### Gaps between words -/

/-- Blanks and line breaks between two words. -/
structure Gap where
  /-- Blanks, if the words are on one line. -/
  blanks : List Char := []
  /-- The first line break. -/
  first : List Char := []
  /-- The line breaks after the first. -/
  more : List Char := []
  /-- Whether the words are on different lines. -/
  broken : Bool := false

/-- What a gap leaves between the words. -/
def Gap.text (gap : Gap) : List Char :=
  if gap.broken then
    if gap.first = ['\n'] then
      if gap.more.isEmpty then [' '] else gap.more
    else gap.first ++ gap.more
  else gap.blanks

/-- Reads a gap.  A tab that stands where an indentation of the given depth is still due is
refused. -/
def readGap (indent : Nat) (gap : Gap) : Nat → Cursor → Except Fault (Gap × Cursor)
  | 0, cursor => .ok (gap, cursor)
  | fuel + 1, cursor =>
    match cursor.rest with
    | [] => .ok (gap, cursor)
    | c :: _ =>
      if isBlank c then
        if gap.broken then
          if c = '\t' ∧ cursor.column < indent then .error .indentation
          else readGap indent gap fuel (cursor.skip 1)
        else readGap indent { gap with blanks := gap.blanks ++ [c] } fuel (cursor.skip 1)
      else if isBreak c then
        let (text, next) := cursor.lineBreak
        if gap.broken then readGap indent { gap with more := gap.more ++ text } fuel next
        else readGap indent { gap with blanks := [], first := text, broken := true } fuel next
      else .ok (gap, cursor)

/-! ### Quoted scalars -/

/-- What a one-letter escape stands for. -/
def simpleEscape? : Char → Option Nat
  | '0' => some 0
  | 'a' => some 7
  | 'b' => some 8
  | 't' | '\t' => some 9
  | 'n' => some 10
  | 'v' => some 11
  | 'f' => some 12
  | 'r' => some 13
  | 'e' => some 27
  | ' ' => some 32
  | '"' => some 34
  | '/' => some 47
  | '\\' => some 92
  | 'N' => some 0x85
  | '_' => some 0xA0
  | 'L' => some 0x2028
  | 'P' => some 0x2029
  | _ => none

/-- How many digits follow the letter of a numeric escape. -/
def escapeDigits? : Char → Option Nat
  | 'x' => some 2
  | 'u' => some 4
  | 'U' => some 8
  | _ => none

/-- The value of a hexadecimal digit. -/
def hexValue? (c : Char) : Option Nat :=
  if c.isDigit then some (c.toNat - 48)
  else if 'a' ≤ c ∧ c ≤ 'f' then some (c.toNat - 87)
  else if 'A' ≤ c ∧ c ≤ 'F' then some (c.toNat - 55)
  else none

/-- The escape after a backslash: its character and the place after it. -/
def readEscape (cursor : Cursor) : Except Fault (Char × Cursor) :=
  match cursor.rest with
  | [] => .error .escape
  | c :: rest =>
    match simpleEscape? c, escapeDigits? c with
    | some code, _ => .ok (Char.ofNat code, cursor.skip 1)
    | none, some count =>
      match (rest.take count).mapM hexValue? with
      | none => .error .escape
      | some digits =>
        let code := digits.foldl (fun n d => 16 * n + d) 0
        if digits.length = count ∧ (code < 0xD800 ∨ (0xE000 ≤ code ∧ code ≤ 0x10FFFF)) then
          .ok (Char.ofNat code, cursor.skip (count + 1))
        else .error .escape
    | none, none => .error .escape

/-- The words of a quoted scalar up to its closing quote, which is the next character then.
`gap` is what stands before the next word. -/
def readQuoted (quote : Char) (done : List Char) (gap : Gap) :
    Nat → Cursor → Except Fault (List Char × Cursor)
  | 0, _ => .error .quotation
  | fuel + 1, cursor =>
    if cursor.atMarker then .error .quotation
    else
      match cursor.rest with
      | [] => .error .quotation
      | c :: rest =>
        let joined := done ++ gap.text
        if isBlank c || isBreak c then do
          let (gap, cursor) ← readGap 0 gap (cursor.rest.length + 1) cursor
          readQuoted quote done gap fuel cursor
        else if c = quote then
          if quote = '\'' ∧ rest.head? = some '\'' then
            readQuoted quote (joined ++ ['\'']) {} fuel (cursor.skip 2)
          else .ok (joined, cursor.skip 1)
        else if quote = '"' ∧ c = '\\' then
          if rest.head?.any isBreak then
            readQuoted quote joined { broken := true } fuel (cursor.skip 1).lineBreak.2
          else do
            let (c, cursor) ← readEscape (cursor.skip 1)
            readQuoted quote (joined ++ [c]) {} fuel cursor
        else readQuoted quote (joined ++ [c]) {} fuel (cursor.skip 1)

/-! ### Plain scalars -/

/-- Characters that mean something in a flow collection. -/
def isFlowIndicator (c : Char) : Bool := c = ',' || c = '[' || c = ']' || c = '\x7b' || c = '\x7d'

/-- The word of a plain scalar at the front of a text. -/
def plainWord (inFlow : Bool) : List Char → Except Fault (List Char)
  | [] => .ok []
  | c :: rest =>
    if isBlank c || isBreak c then .ok []
    else if inFlow && c = ':' && (rest.head?.any fun d => isFlowIndicator d || d = '?') then
      .error .plainScalar
    else if (c = ':' && atWordEnd rest) || (inFlow && isFlowIndicator c) then .ok []
    else do return c :: (← plainWord inFlow rest)

/-- A plain scalar, the place after it, and whether the place is on a later line than the last
word. -/
def readPlain (inFlow : Bool) (indent : Nat) (done : List Char) (gap : Gap) :
    Nat → Cursor → Except Fault (List Char × Cursor × Bool)
  | 0, cursor => .ok (done, cursor, gap.broken)
  | fuel + 1, cursor =>
    if cursor.atMarker || cursor.rest.head? = some '#' then .ok (done, cursor, gap.broken)
    else do
      let word ← plainWord inFlow cursor.rest
      if word.isEmpty then return (done, cursor, gap.broken)
      else
        let done := done ++ gap.text ++ word
        let cursor := cursor.skip word.length
        match cursor.rest with
        | [] => return (done, cursor, false)
        | c :: _ =>
          if isBlank c || isBreak c then
            let (gap, cursor) ← readGap indent {} (cursor.rest.length + 1) cursor
            if !inFlow && cursor.column < indent then return (done, cursor, gap.broken)
            else readPlain inFlow indent done gap fuel cursor
          else return (done, cursor, false)

/-! ### Block scalars -/

/-- What becomes of the line breaks at the end of a block. -/
inductive Chomping where
  | strip
  | clip
  | keep
  deriving DecidableEq

/-- The chomping that a character asks for. -/
def Chomping.ofChar? : Char → Option Chomping
  | '-' => some .strip
  | '+' => some .keep
  | _ => none

/-- The header of a block: chomping and depth of indentation, in either order. -/
def readHeader (cursor : Cursor) : Except Fault (Chomping × Option Nat × Cursor) :=
  let digit? (text : List Char) : Option Nat :=
    match text with
    | c :: _ => if c.isDigit then some (c.toNat - 48) else none
    | [] => none
  match cursor.rest.head?.bind Chomping.ofChar?, digit? cursor.rest with
  | some chomping, _ =>
    let cursor := cursor.skip 1
    match digit? cursor.rest with
    | some 0 => .error .blockScalar
    | some depth => .ok (chomping, some depth, cursor.skip 1)
    | none => .ok (chomping, none, cursor)
  | none, some 0 => .error .blockScalar
  | none, some depth =>
    let cursor := cursor.skip 1
    match cursor.rest.head?.bind Chomping.ofChar? with
    | some chomping => .ok (chomping, some depth, cursor.skip 1)
    | none => .ok (.clip, some depth, cursor)
  | none, none => .ok (.clip, none, cursor)

/-- The indentation and the empty lines before a line of a block: the line breaks, the greatest
column reached, and the place.  With no depth of indentation known any number of blanks counts. -/
def readBlockBreaks (indent : Option Nat) (breaks : List Char) (greatest : Nat) :
    Nat → Cursor → Except Fault (List Char × Nat × Cursor)
  | 0, cursor => .ok (breaks, greatest, cursor)
  | fuel + 1, cursor =>
    let due := match indent with
      | some depth => depth - cursor.column
      | none => cursor.rest.length
    let cursor := cursor.skip ((cursor.rest.take due).takeWhile (· = ' ')).length
    let greatest := max greatest cursor.column
    let short := indent.all fun depth => cursor.column < depth
    match cursor.rest with
    | [] => .ok (breaks, greatest, cursor)
    | c :: _ =>
      if c = '\t' && short then .error .indentation
      else if isBreak c then
        let (text, cursor) := cursor.lineBreak
        readBlockBreaks indent (breaks ++ text) greatest fuel cursor
      else .ok (breaks, greatest, cursor)

/-- The lines of a block: the text so far, the line break after the last line, the further line
breaks, and whether the last line began with a blank. -/
def readBlockLines (folded : Bool) (indent : Nat) (done lead trail : List Char) (blank : Bool) :
    Nat → Cursor → Except Fault (List Char × List Char × List Char × Cursor)
  | 0, cursor => .ok (done, lead, trail, cursor)
  | fuel + 1, cursor =>
    match cursor.rest with
    | [] => .ok (done, lead, trail, cursor)
    | c :: _ =>
      if cursor.column ≠ indent then .ok (done, lead, trail, cursor)
      else do
        let nowBlank := isBlank c
        let joint :=
          if folded && lead = ['\n'] && !blank && !nowBlank then
            if trail.isEmpty then [' '] else []
          else lead
        let (line, cursor) := cursor.span fun c => !isBreak c
        let (lead, cursor) := cursor.lineBreak
        let done := done ++ joint ++ trail ++ line
        let (trail, _, cursor) ←
          readBlockBreaks (some indent) [] 0 (cursor.rest.length + 1) cursor
        readBlockLines folded indent done lead trail nowBlank fuel cursor

/-- A block after its indicator.  `outer` is the indentation around it. -/
def readBlock (folded : Bool) (outer : Int) (cursor : Cursor) :
    Except Fault (List Char × Cursor) := do
  let (chomping, depth, cursor) ← readHeader cursor
  let cursor ← cursor.finishLine .blockScalar
  let stated := depth.map fun depth => (max outer 0).toNat + depth
  let (trail, greatest, cursor) ← readBlockBreaks stated [] 0 (cursor.rest.length + 1) cursor
  let indent := stated.getD (max greatest (max (outer + 1) 1).toNat)
  let (done, lead, trail, cursor) ←
    readBlockLines folded indent [] [] trail false (cursor.rest.length + 1) cursor
  let tail :=
    match chomping with
    | .strip => []
    | .clip => lead
    | .keep => lead ++ trail
  return (done ++ tail, cursor)

end TransitionRules.Yaml
