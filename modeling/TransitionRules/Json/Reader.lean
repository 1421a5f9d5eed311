/-
TransitionRules/Json/Reader.lean

Reading JSON text.  The text is cut into tokens, and the tokens run through a machine whose state
is the stack of containers still open and what may come next; so reading is one fold over the
tokens.  Of two fields with one name the later one counts, and containers nest at most
`depthLimit` deep.
-/
import TransitionRules.Json.Numeral

namespace TransitionRules.Json

/-- Why a text is not a JSON document. -/
inductive TextFault where
  /-- A string that does not end, or one with a bare control character or a bad escape. -/
  | string
  /-- A numeral that is malformed, or too large for a double. -/
  | number
  /-- A character that begins no token. -/
  | character (c : Char)
  /-- A token in the wrong place. -/
  | unexpected
  | unfinished
  | tooDeep
  deriving DecidableEq, Repr

/-- What is wrong, in words. -/
def TextFault.message : TextFault → String
  | .string => "malformed string"
  | .number => "malformed or too large number"
  | .character c => "unexpected character " ++ c.toString
  | .unexpected => "unexpected token"
  | .unfinished => "unexpected end of text"
  | .tooDeep => "nested too deeply"

/-- The pieces of JSON text. -/
inductive Token where
  | openArray
  | closeArray
  | openObject
  | closeObject
  | comma
  | colon
  | literal (value : Json)
  | string (s : String)

/-! ### Tokens -/

/-- The value of a hexadecimal digit. -/
def hexValue? (c : Char) : Option Nat :=
  if '0' ≤ c ∧ c ≤ '9' then some (c.toNat - 48)
  else if 'a' ≤ c ∧ c ≤ 'f' then some (c.toNat - 87)
  else if 'A' ≤ c ∧ c ≤ 'F' then some (c.toNat - 55)
  else none

/-- The number of four hexadecimal digits. -/
def hexQuad? (a b c d : Char) : Option Nat := do
  some (4096 * (← hexValue? a) + 256 * (← hexValue? b) + 16 * (← hexValue? c) + (← hexValue? d))

/-- The character of a one-letter escape. -/
def simpleEscape? : Char → Option Char
  | '"' => some '"'
  | '\\' => some '\\'
  | '/' => some '/'
  | 'b' => some (Char.ofNat 8)
  | 'f' => some (Char.ofNat 12)
  | 'n' => some '\n'
  | 'r' => some '\r'
  | 't' => some '\t'
  | _ => none

/-- The characters of a string after its opening quote, and the text after its closing one.  A
character beyond the first plane may be written as two escapes; half of such a pair is refused. -/
def scanString? (done : List Char) : List Char → Option (List Char × List Char)
  | [] => none
  | '"' :: rest => some (done.reverse, rest)
  | '\\' :: 'u' :: a :: b :: c :: d :: rest =>
    match hexQuad? a b c d with
    | none => none
    | some unit =>
      if 0xD800 ≤ unit ∧ unit < 0xDC00 then
        match rest with
        | '\\' :: 'u' :: e :: f :: g :: h :: rest =>
          match hexQuad? e f g h with
          | none => none
          | some low =>
            if 0xDC00 ≤ low ∧ low < 0xE000 then
              scanString?
                (Char.ofNat (0x10000 + (unit - 0xD800) * 1024 + (low - 0xDC00)) :: done) rest
            else none
        | _ => none
      else if 0xDC00 ≤ unit ∧ unit < 0xE000 then none
      else scanString? (Char.ofNat unit :: done) rest
  | '\\' :: c :: rest =>
    match simpleEscape? c with
    | some e => scanString? (e :: done) rest
    | none => none
  | c :: rest => if c.toNat < 32 then none else scanString? (c :: done) rest

/-- The words of JSON. -/
def word? : List Char → Option (Json × List Char)
  | 'n' :: 'u' :: 'l' :: 'l' :: rest => some (.null, rest)
  | 't' :: 'r' :: 'u' :: 'e' :: rest => some (.bool true, rest)
  | 'f' :: 'a' :: 'l' :: 's' :: 'e' :: rest => some (.bool false, rest)
  | _ => none

/-- Whether a character may stand between tokens. -/
def isBlank (c : Char) : Bool := c = ' ' ∨ c = '\n' ∨ c = '\t' ∨ c = '\r'

/-- The token at the front of a text that begins with the given character. -/
def token? (c : Char) (rest : List Char) : Except TextFault (Token × List Char) :=
  match c with
  | '[' => .ok (.openArray, rest)
  | ']' => .ok (.closeArray, rest)
  | '\x7b' => .ok (.openObject, rest)
  | '\x7d' => .ok (.closeObject, rest)
  | ',' => .ok (.comma, rest)
  | ':' => .ok (.colon, rest)
  | '"' =>
    match scanString? [] rest with
    | some (s, rest) => .ok (.string (String.ofList s), rest)
    | none => .error .string
  | c =>
    if c = '-' ∨ c.isDigit then
      match Numeral.scan? (c :: rest) with
      | none => .error .number
      | some (numeral, rest) =>
        match numeral.value? with
        | some n => .ok (.literal (.number n), rest)
        | none => .error .number
    else
      match word? (c :: rest) with
      | some (value, rest) => .ok (.literal value, rest)
      | none => .error (.character c)

/-- The tokens of a text, at most `fuel` of them; every token has at least one character, so a
text of `n` characters needs no more than `n + 1`. -/
def tokens : Nat → List Char → Except TextFault (List Token)
  | 0, _ => .ok []
  | fuel + 1, text =>
    match text.dropWhile isBlank with
    | [] => .ok []
    | c :: rest => do
      let (token, rest) ← token? c rest
      return token :: (← tokens fuel rest)

/-! ### The machine -/

/-- A container that is still open: the items so far in reverse order, or the fields so far with
the name that the next value belongs to. -/
inductive Frame where
  | array (items : List Json)
  | object (fields : Object) (name : String)

/-- What may come next. -/
inductive Expectation where
  | value
  | valueOrEnd
  | name
  | nameOrEnd
  | colon
  | commaOrEnd
  | nothing
  deriving DecidableEq

/-- The containers still open, innermost first, with what may come next and the finished document
at the end. -/
structure Machine where
  stack : List Frame
  next : Expectation
  result : Json

/-- The greatest number of containers inside each other. -/
def depthLimit : Nat := 127

namespace Machine

/-- Before the first token. -/
def start : Machine := ⟨[], .value, .null⟩

/-- A value has ended: it joins the innermost container or is the document. -/
def accept (stack : List Frame) (value : Json) : Machine :=
  match stack with
  | [] => ⟨[], .nothing, value⟩
  | .array items :: stack => ⟨.array (value :: items) :: stack, .commaOrEnd, .null⟩
  | .object fields name :: stack =>
    ⟨.object (fields.insert name value) name :: stack, .commaOrEnd, .null⟩

/-- A container begins. -/
def enter (m : Machine) (frame : Frame) (next : Expectation) : Except TextFault Machine :=
  if m.stack.length < depthLimit then .ok ⟨frame :: m.stack, next, .null⟩ else .error .tooDeep

/-- One token. -/
def step (m : Machine) (token : Token) : Except TextFault Machine :=
  match m.next, token, m.stack with
  | .value, .openArray, _ | .valueOrEnd, .openArray, _ => m.enter (.array []) .valueOrEnd
  | .value, .openObject, _ | .valueOrEnd, .openObject, _ => m.enter (.object .nil "") .nameOrEnd
  | .value, .literal value, _ | .valueOrEnd, .literal value, _ => .ok (accept m.stack value)
  | .value, .string s, _ | .valueOrEnd, .string s, _ => .ok (accept m.stack (.string s))
  | .valueOrEnd, .closeArray, .array items :: stack
  | .commaOrEnd, .closeArray, .array items :: stack =>
    .ok (accept stack (.array items.reverse))
  | .nameOrEnd, .closeObject, .object fields _ :: stack
  | .commaOrEnd, .closeObject, .object fields _ :: stack => .ok (accept stack (.object fields))
  | .name, .string s, .object fields _ :: stack
  | .nameOrEnd, .string s, .object fields _ :: stack =>
    .ok ⟨.object fields s :: stack, .colon, .null⟩
  | .colon, .colon, _ => .ok ⟨m.stack, .value, .null⟩
  | .commaOrEnd, .comma, .array _ :: _ => .ok ⟨m.stack, .value, .null⟩
  | .commaOrEnd, .comma, .object _ _ :: _ => .ok ⟨m.stack, .name, .null⟩
  | _, _, _ => .error .unexpected

end Machine

/-- The document of a text. -/
def read (text : String) : Except TextFault Json := do
  let chars := text.toList
  let final ← (← tokens (chars.length + 1) chars).foldlM Machine.step Machine.start
  if final.next = .nothing then return final.result else .error .unfinished

end TransitionRules.Json
