/-
TransitionRules/Pattern/Escape.lean

The parts of a written pattern that stand for one character, one set or one condition: plain
characters, escapes, and how the flags in force change what they mean.
-/
import TransitionRules.Pattern.Property

namespace TransitionRules.Pattern

/-- Why a text is no pattern. -/
inductive Fault where
  | escape
  | codePoint
  | property
  | characterSet
  | emptyRange
  | group
  | groupName
  | flags
  | repetition
  /-- Look-around and references back to a group, which no pattern has. -/
  | unsupported
  /-- A pattern that could match a part of a character. -/
  | partialCharacter
  | tooDeep
  | tooLarge
  deriving DecidableEq, Repr

/-- The flags in force at a place of a pattern. -/
structure Flags where
  /-- Upper and lower case do not differ. -/
  caseless : Bool := false
  /-- `^` and `$` hold at every line. -/
  multiLine : Bool := false
  /-- `.` stands for line breaks too. -/
  dotAll : Bool := false
  /-- `\r\n` is one line break. -/
  crlf : Bool := false
  /-- Classes of characters go beyond ASCII. -/
  unicode : Bool := true
  /-- Blanks and comments do not count. -/
  verbose : Bool := false

/-! ### Blanks -/

mutual

/-- The text after blanks and comments. -/
def skipBlanks : List Char → List Char
  | [] => []
  | c :: rest =>
    if Text.isWhiteSpace c then skipBlanks rest
    else if c = '#' then skipComment rest
    else c :: rest

/-- The text after the rest of a line, and blanks from there on. -/
def skipComment : List Char → List Char
  | [] => []
  | c :: rest => if c = '\n' then skipBlanks rest else skipComment rest

end

/-- The text after what does not count under the flags. -/
def Flags.skip (flags : Flags) (text : List Char) : List Char :=
  if flags.verbose then skipBlanks text else text

/-- Like `skip`, where the text must not end yet. -/
def Flags.more (flags : Flags) (fault : Fault) (text : List Char) : Except Fault (List Char) :=
  match flags.skip text with
  | [] => .error fault
  | text => .ok text

/-! ### Sets under flags -/

/-- The ASCII characters. -/
def CharSet.ascii : CharSet := .property .ascii

/-- Adds what differs from a member in case only. -/
def Flags.fold (flags : Flags) (set : CharSet) : CharSet :=
  if flags.caseless then
    if flags.unicode then .foldCase set
    else .union set (.intersection (.foldCase set) .ascii)
  else set

/-- The set between brackets, or its complement.  Without Unicode a set must be within ASCII. -/
def Flags.finish (flags : Flags) (negated : Bool) (set : CharSet) : Except Fault CharSet :=
  let folded := flags.fold set
  let result := if negated then CharSet.complement folded else folded
  if flags.unicode then .ok result
  else if (List.range 128).any fun n => result.holds (n + 128) then .error .partialCharacter
  else .ok result

/-- The set of a class escape such as `\d`. -/
def Flags.classSet (flags : Flags) (negated : Bool) (p : Property) : Except Fault CharSet :=
  if flags.unicode then
    .ok (if negated then .complement (.property p) else .property p)
  else if negated then .error .partialCharacter
  else .ok (.intersection (.property p) .ascii)

/-- The set of a property escape. -/
def Flags.propertySet (flags : Flags) (negated : Bool) (p : Property) : Except Fault CharSet :=
  if flags.unicode then flags.finish negated (.property p) else .error .partialCharacter

/-! ### Escapes -/

/-- What stands for one character, one set or one condition. -/
inductive Atom where
  /-- A character; `byte` marks one that was written as two hexadecimal digits. -/
  | character (c : Char) (byte : Bool)
  | set (s : CharSet)
  | assertion (a : Assertion)

/-- Characters that mean something in a pattern. -/
def isMeta (c : Char) : Bool := "\\.+*?()|[]\x7b\x7d^$#&-~".toList.contains c

/-- Characters that stand for themselves after a backslash. -/
def isEscapable (c : Char) : Bool :=
  isMeta c || (c.toNat < 128 && !c.isAlphanum && c ≠ '<' && c ≠ '>')

/-- The value of a hexadecimal digit. -/
def hexDigit? (c : Char) : Option Nat :=
  if c.isDigit then some (c.toNat - 48)
  else if 'a' ≤ c ∧ c ≤ 'f' then some (c.toNat - 87)
  else if 'A' ≤ c ∧ c ≤ 'F' then some (c.toNat - 55)
  else none

/-- The character of a code point. -/
def character? (code : Nat) : Except Fault Char :=
  if h : code.isValidChar then .ok ⟨UInt32.ofNatLT code (by
    rcases h with h | h
    · exact Nat.lt_of_lt_of_le h (by decide)
    · exact Nat.lt_of_lt_of_le h.2 (by decide)), by
      simpa [UInt32.isValidChar, UInt32.toNat_ofNatLT] using h⟩
  else .error .codePoint

/-- A code point of exactly so many hexadecimal digits. -/
def readHexDigits (flags : Flags) (code : Nat) :
    Nat → List Char → Except Fault (Nat × List Char)
  | 0, text => .ok (code, flags.skip text)
  | count + 1, text => do
    match ← flags.more .escape text with
    | c :: rest =>
      match hexDigit? c with
      | some digit => readHexDigits flags (16 * code + digit) count rest
      | none => .error .codePoint
    | [] => .error .escape

/-- The text between braces, and what follows them; blanks inside do not count. -/
def readBraced (flags : Flags) (done : List Char) :
    Nat → List Char → Except Fault (List Char × List Char)
  | 0, _ => .error .escape
  | fuel + 1, text => do
    match ← flags.more .escape text with
    | '\x7d' :: rest => .ok (done.reverse, rest)
    | c :: rest => readBraced flags (c :: done) fuel rest
    | [] => .error .escape

/-- A character written by its code point, with as many digits if there are no braces. -/
def readCodePoint (flags : Flags) (count : Nat) (text : List Char) :
    Except Fault (Atom × List Char) := do
  match ← flags.more .escape text with
  | '\x7b' :: rest =>
    let (digits, rest) ← readBraced flags [] (rest.length + 1) rest
    match digits.mapM hexDigit? with
    | some (digit :: more) =>
      let c ← character? ((digit :: more).foldl (fun code d => 16 * code + d) 0)
      return (.character c false, flags.skip rest)
    | _ => .error .codePoint
  | text =>
    let (code, rest) ← readHexDigits flags 0 count text
    let c ← character? code
    return (.character c (count = 2), rest)

/-- A set written by a property. -/
def readProperty (flags : Flags) (negated : Bool) (text : List Char) :
    Except Fault (Atom × List Char) := do
  match ← flags.more .escape text with
  | '\x7b' :: rest =>
    let (name, rest) ← readBraced flags [] (rest.length + 1) rest
    match Property.ofText? name with
    | some (p, inverse) => return (.set (← flags.propertySet (negated != inverse) p), rest)
    | none => .error .property
  | c :: rest =>
    match Property.named? [c] with
    | some p => return (.set (← flags.propertySet negated p), flags.skip rest)
    | none => .error .property
  | [] => .error .escape

/-- The names of conditions at the edge of a word. -/
def edge? (name : String) : Option Assertion :=
  match name with
  | "start" => some .wordStart
  | "end" => some .wordEnd
  | "start-half" => some .wordStartHalf
  | "end-half" => some .wordEndHalf
  | _ => none

/-- Letters and hyphens with the blanks between them, and what follows. -/
def readEdgeName (flags : Flags) (done : List Char) : Nat → List Char → List Char × List Char
  | 0, text => (done.reverse, text)
  | fuel + 1, text =>
    match text with
    | [] => (done.reverse, [])
    | c :: rest =>
      if c.isAlpha || c = '-' then readEdgeName flags (c :: done) fuel (flags.skip rest)
      else (done.reverse, c :: rest)

/-- What follows `\b`: the name of an edge between braces, unless the braces count a
repetition. -/
def readEdge (flags : Flags) (text : List Char) : Except Fault (Atom × List Char) := do
  match text with
  | '\x7b' :: rest =>
    let (name, after) := readEdgeName flags [] rest.length (← flags.more .repetition rest)
    if name.isEmpty then return (.assertion .wordBoundary, text)
    else
      match after with
      | '\x7d' :: after =>
        match edge? (String.ofList name) with
        | some a => return (.assertion a, after)
        | none => .error .escape
      | _ => .error .escape
  | _ => return (.assertion .wordBoundary, text)

/-- What a backslash begins. -/
def readEscape (flags : Flags) (text : List Char) : Except Fault (Atom × List Char) := do
  match text with
  | [] => .error .escape
  | c :: rest =>
    let plain (code : Nat) : Except Fault (Atom × List Char) :=
      .ok (.character (Char.ofNat code) false, rest)
    let classOf (negated : Bool) (p : Property) : Except Fault (Atom × List Char) := do
      return (.set (← flags.classSet negated p), rest)
    match c with
    | 'x' => readCodePoint flags 2 rest
    | 'u' => readCodePoint flags 4 rest
    | 'U' => readCodePoint flags 8 rest
    | 'p' => readProperty flags false rest
    | 'P' => readProperty flags true rest
    | 'd' => classOf false .digit
    | 'D' => classOf true .digit
    | 's' => classOf false .space
    | 'S' => classOf true .space
    | 'w' => classOf false .word
    | 'W' => classOf true .word
    | 'a' => plain 7
    | 'f' => plain 12
    | 't' => plain 9
    | 'n' => plain 10
    | 'r' => plain 13
    | 'v' => plain 11
    | 'A' => .ok (.assertion .textStart, rest)
    | 'z' => .ok (.assertion .textEnd, rest)
    | 'b' => readEdge flags rest
    | 'B' => .ok (.assertion .notWordBoundary, rest)
    | '<' => .ok (.assertion .wordStart, rest)
    | '>' => .ok (.assertion .wordEnd, rest)
    | c =>
      if c.isDigit then .error .unsupported
      else if isEscapable c then .ok (.character c false, rest)
      else .error .escape

end TransitionRules.Pattern
