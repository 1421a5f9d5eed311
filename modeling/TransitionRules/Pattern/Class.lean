/-
TransitionRules/Pattern/Class.lean

Sets of characters between brackets.  Items are characters, ranges, escapes, named classes and
further brackets; `&&`, `--` and `~~` combine what stands on their left with what stands on their
right, from left to right.
-/
import TransitionRules.Pattern.Escape

namespace TransitionRules.Pattern

/-- Items side by side: their union, how deep the deepest of them is, and how many there are. -/
structure Items where
  set : CharSet := .none
  depth : Nat := 0
  count : Nat := 0

namespace Items

/-- One more item. -/
def push (items : Items) (set : CharSet) (depth : Nat) : Items :=
  ⟨.union items.set set, max items.depth depth, items.count + 1⟩

/-- How deep the items are together. -/
def totalDepth (items : Items) : Nat := if items.count < 2 then items.depth else items.depth + 1

end Items

/-- Operations between sets. -/
inductive SetOperation where
  | intersection
  | difference
  | symmetricDifference

/-- The set that an operation makes. -/
def SetOperation.apply : SetOperation → CharSet → CharSet → CharSet
  | .intersection => .intersection
  | .difference => .difference
  | .symmetricDifference => .symmetricDifference

/-- What is still open while a set is read. -/
inductive ClassFrame where
  /-- A bracket, with the items before it. -/
  | bracket (before : Items) (negated : Bool)
  /-- The left side of an operation. -/
  | operation (op : SetOperation) (left : CharSet) (depth : Nat)

/-- Finishes the operation on top, if there is one. -/
def closeOperation (flags : Flags) (items : Items) :
    List ClassFrame → (CharSet × Nat) × List ClassFrame
  | .operation op left depth :: stack =>
    ((op.apply (flags.fold left) (flags.fold items.set), max depth items.totalDepth + 1), stack)
  | stack => ((items.set, items.totalDepth), stack)

/-- The classes that have names. -/
def namedClass? (name : String) : Option CharSet :=
  let ranges := fun (list : List (Char × Char)) =>
    list.foldl (fun set range => CharSet.union set (.range range.1.toNat range.2.toNat)) CharSet.none
  match name with
  | "alnum" => some (ranges [('0', '9'), ('A', 'Z'), ('a', 'z')])
  | "alpha" => some (ranges [('A', 'Z'), ('a', 'z')])
  | "ascii" => some .ascii
  | "blank" => some (ranges [('\t', '\t'), (' ', ' ')])
  | "cntrl" => some (.union (.range 0 31) (.range 127 127))
  | "digit" => some (ranges [('0', '9')])
  | "graph" => some (ranges [('!', '~')])
  | "lower" => some (ranges [('a', 'z')])
  | "print" => some (ranges [(' ', '~')])
  | "punct" => some (ranges [('!', '/'), (':', '@'), ('[', '\x60'), ('\x7b', '~')])
  | "space" => some (.union (.range 9 13) (.range 32 32))
  | "upper" => some (ranges [('A', 'Z')])
  | "word" => some (ranges [('0', '9'), ('A', 'Z'), ('_', '_'), ('a', 'z')])
  | "xdigit" => some (ranges [('0', '9'), ('A', 'F'), ('a', 'f')])
  | _ => none

/-- A named class such as `[:alpha:]`, after its first bracket. -/
def readNamedClass? : List Char → Option (CharSet × List Char)
  | ':' :: text =>
    let (negated, text) :=
      match text with
      | '^' :: text => (true, text)
      | text => (false, text)
    match text.dropWhile (· ≠ ':') with
    | ':' :: ']' :: rest =>
      (namedClass? (String.ofList (text.takeWhile (· ≠ ':')))).map fun set =>
        (if negated then .complement set else set, rest)
    | _ => none
  | _ => none

/-- The hyphens at the front of a set, which stand for themselves. -/
def readHyphens (flags : Flags) (items : Items) :
    Nat → List Char → Except Fault (Items × List Char)
  | 0, text => .ok (items, text)
  | fuel + 1, text =>
    match text with
    | '-' :: rest => do
      readHyphens flags (items.push (.range 45 45) 0) fuel (← flags.more .characterSet rest)
    | text => .ok (items, text)

/-- The front of a set, after its bracket: whether it is negated, and the characters that stand
for themselves only there. -/
def openBracket (flags : Flags) (text : List Char) :
    Except Fault (Bool × Items × List Char) := do
  let text ← flags.more .characterSet text
  let (negated, text) ←
    match text with
    | '^' :: rest => do pure (true, ← flags.more .characterSet rest)
    | text => pure (false, text)
  let (items, text) ← readHyphens flags {} text.length text
  match text with
  | ']' :: rest =>
    if items.count = 0 then
      return (negated, items.push (.range 93 93) 0, ← flags.more .characterSet rest)
    else return (negated, items, text)
  | text => return (negated, items, text)

/-- One character or escape of a set. -/
def readItem (flags : Flags) : List Char → Except Fault (Atom × List Char)
  | '\\' :: rest => readEscape flags rest
  | c :: rest => .ok (.character c false, rest)
  | [] => .error .characterSet

/-- The code point of an item that is a character.  Without Unicode only ASCII is left. -/
def itemCode (flags : Flags) : Atom → Except Fault Nat
  | .character c _ =>
    if flags.unicode || c.toNat < 128 then .ok c.toNat else .error .partialCharacter
  | _ => .error .characterSet

/-- The set of an item. -/
def itemSet (flags : Flags) : Atom → Except Fault CharSet
  | .set s => .ok s
  | atom => do
    let code ← itemCode flags atom
    return .range code code

/-- One item or a range of two. -/
def readRange (flags : Flags) (text : List Char) : Except Fault (CharSet × List Char) := do
  let (first, rest) ← readItem flags text
  let rest ← flags.more .characterSet rest
  match rest with
  | '-' :: after =>
    match flags.skip after with
    | [] => .error .characterSet
    | ']' :: _ | '-' :: _ => return (← itemSet flags first, rest)
    | after =>
      let (second, rest) ← readItem flags after
      let low ← itemCode flags first
      let high ← itemCode flags second
      if low ≤ high then return (.range low high, rest) else .error .emptyRange
  | _ => return (← itemSet flags first, rest)

/-- The operation that two characters stand for. -/
def operation? : List Char → Option (SetOperation × List Char)
  | '&' :: '&' :: rest => some (.intersection, rest)
  | '-' :: '-' :: rest => some (.difference, rest)
  | '~' :: '~' :: rest => some (.symmetricDifference, rest)
  | _ => none

/-- Reads a set up to the bracket that closes it, at most `fuel` items; the answer has the set, its
depth and the text after it. -/
def readClass (flags : Flags) :
    Nat → List ClassFrame → Items → List Char → Except Fault (CharSet × Nat × List Char)
  | 0, _, _, _ => .error .characterSet
  | fuel + 1, stack, items, text => do
    match ← flags.more .characterSet text with
    | '[' :: rest =>
      match readNamedClass? rest with
      | some (set, rest) => readClass flags fuel stack (items.push set 0) rest
      | none =>
        let (negated, inner, rest) ← openBracket flags rest
        readClass flags fuel (.bracket items negated :: stack) inner rest
    | ']' :: rest =>
      let ((set, depth), stack) := closeOperation flags items stack
      match stack with
      | [.bracket _ negated] => return (← flags.finish negated set, depth + 1, rest)
      | .bracket before negated :: stack =>
        let set ← flags.finish negated set
        readClass flags fuel stack (before.push set (depth + 1)) rest
      | _ => .error .characterSet
    | text =>
      match operation? text with
      | some (op, rest) =>
        let ((set, depth), stack) := closeOperation flags items stack
        readClass flags fuel (.operation op set depth :: stack) {} rest
      | none =>
        let (set, rest) ← readRange flags text
        readClass flags fuel stack (items.push set 0) rest

/-- A set between brackets, after the first of them. -/
def readBrackets (flags : Flags) (text : List Char) :
    Except Fault (CharSet × Nat × List Char) := do
  let (negated, items, rest) ← openBracket flags text
  readClass flags (text.length + 1) [.bracket {} negated] items rest

end TransitionRules.Pattern
