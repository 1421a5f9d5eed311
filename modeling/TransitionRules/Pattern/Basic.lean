/-
TransitionRules/Pattern/Basic.lean

Search patterns over characters, and when a pattern is found in a text.

A pattern relates the places of a text: `run` maps the set of places where a match may begin to
the set of places where it may end.  Sets of places are bit sets, so a character advances a whole
set by one shift, an assertion masks it, and a repetition is a union of images that grows until
nothing new is added.  Whether a pattern occurs somewhere (`isFound`) is whether the image of all
places is inhabited; which of several matches a searcher would report plays no part.
-/
import TransitionRules.Text.Case
import TransitionRules.Text.Script

namespace TransitionRules

namespace Pattern

/-- Named properties of characters. -/
inductive Property where
  | any
  | ascii
  | asciiHexDigit
  | assigned
  | word
  | digit
  | space
  | alphabetic
  | lowercase
  | uppercase
  | category (k : Text.Category)
  | script (k : Text.Script)
  | letter
  | casedLetter
  | mark
  | number
  | punctuation
  | symbol
  | separator
  | other
  deriving DecidableEq, Repr

/-- Whether a character has a property. -/
def Property.holds (c : Char) : Property → Bool
  | .any => true
  | .ascii => c.toNat < 128
  | .asciiHexDigit => c.isDigit || ('a' ≤ c ∧ c ≤ 'f') || ('A' ≤ c ∧ c ≤ 'F')
  | .assigned => Text.category c ≠ .unassigned
  | .word => Text.isWord c
  | .digit => Text.isDecimalDigit c
  | .space => Text.isWhiteSpace c
  | .alphabetic =>
    (Text.category c).isLetter || Text.category c = .letterNumber || Text.isEnclosedLetter c
  | .lowercase => Text.category c = .lowerLetter
  | .uppercase => Text.category c = .upperLetter
  | .category k => Text.category c = k
  | .script k => k.holds c.toNat
  | .letter => (Text.category c).isLetter
  | .casedLetter => (Text.category c).isCasedLetter
  | .mark => (Text.category c).isMark
  | .number => (Text.category c).isNumber
  | .punctuation => (Text.category c).isPunctuation
  | .symbol => (Text.category c).isSymbol
  | .separator => (Text.category c).isSeparator
  | .other => (Text.category c).isOther

/-- Sets of characters. -/
inductive CharSet where
  | none
  | range (first last : Nat)
  | property (p : Property)
  | union (a b : CharSet)
  | intersection (a b : CharSet)
  | difference (a b : CharSet)
  | symmetricDifference (a b : CharSet)
  | complement (a : CharSet)
  /-- The characters that differ from a member in case only. -/
  | foldCase (a : CharSet)

/-- Membership of a code point. -/
def CharSet.holds (code : Nat) : CharSet → Bool
  | .none => false
  | .range first last => first ≤ code ∧ code ≤ last
  | .property p => p.holds (Char.ofNat code)
  | .union a b => a.holds code || b.holds code
  | .intersection a b => a.holds code && b.holds code
  | .difference a b => a.holds code && !b.holds code
  | .symmetricDifference a b => a.holds code != b.holds code
  | .complement a => !a.holds code
  | .foldCase a => (Text.foldOrbit code).any fun other => a.holds other

/-- Conditions on a place between two characters. -/
inductive Assertion where
  | textStart
  | textEnd
  | lineStart
  | lineEnd
  /-- The start or end of a line where `\r\n` counts as one line break. -/
  | lineStartCrlf
  | lineEndCrlf
  | wordBoundary
  | notWordBoundary
  | wordStart
  | wordEnd
  | wordStartHalf
  | wordEndHalf
  deriving DecidableEq, Repr

end Pattern

/-- A search pattern. -/
inductive Pattern where
  | empty
  | character (set : Pattern.CharSet)
  | assertion (a : Pattern.Assertion) (unicode : Bool)
  | sequence (first second : Pattern)
  | choice (first second : Pattern)
  | repetition (p : Pattern) (least : Nat) (most : Option Nat)

namespace Pattern

/-- Word characters of ASCII. -/
def isAsciiWord (c : Char) : Bool := c.isAlphanum || c = '_'

/-- Whether a condition holds between two characters of a text. -/
def Assertion.holds (isWord : Char → Bool) (before after : Option Char) : Assertion → Bool :=
  let wordBefore := before.any isWord
  let wordAfter := after.any isWord
  fun
  | .textStart => before.isNone
  | .textEnd => after.isNone
  | .lineStart => before.isNone || before = some '\n'
  | .lineEnd => after.isNone || after = some '\n'
  | .lineStartCrlf =>
    before.isNone || before = some '\n' || (before = some '\r' && after ≠ some '\n')
  | .lineEndCrlf =>
    after.isNone || after = some '\r' || (after = some '\n' && before ≠ some '\r')
  | .wordBoundary => wordBefore != wordAfter
  | .notWordBoundary => wordBefore == wordAfter
  | .wordStart => !wordBefore && wordAfter
  | .wordEnd => wordBefore && !wordAfter
  | .wordStartHalf => !wordBefore
  | .wordEndHalf => !wordAfter

/-! ### Sets of places -/

/-- The places before which a character of the set stands; `bit` stands for the first place. -/
def charMask (set : CharSet) (bit : Nat) : List Char → Nat
  | [] => 0
  | c :: rest => (if set.holds c.toNat then bit else 0) ||| charMask set (2 * bit) rest

/-- The places at which a condition holds, from a given place on. -/
def assertionMask (a : Assertion) (isWord : Char → Bool) (before : Option Char) (bit : Nat) :
    List Char → Nat
  | [] => if a.holds isWord before none then bit else 0
  | c :: rest =>
    (if a.holds isWord before (some c) then bit else 0) |||
      assertionMask a isWord (some c) (2 * bit) rest

/-- Applies `f` as often as told, or until it changes nothing. -/
def iterate (f : Nat → Nat) : Nat → Nat → Nat
  | 0, places => places
  | count + 1, places =>
    let next := f places
    if next = places then places else iterate f count next

/-- The places where a match of the pattern can end if it begins at one of the given places. -/
def run (text : List Char) : Pattern → Nat → Nat
  | .empty, places => places
  | .character set, places => 2 * (places &&& charMask set 1 text)
  | .assertion a unicode, places =>
    places &&& assertionMask a (if unicode then Text.isWord else isAsciiWord) none 1 text
  | .sequence first second, places => second.run text (first.run text places)
  | .choice first second, places => first.run text places ||| second.run text places
  | .repetition p least most, places =>
    let required := iterate (fun s => p.run text s) least places
    let more := fun s => s ||| p.run text s
    match most with
    | some most => iterate more (most - least) required
    | none => iterate more (text.length + 1) required

/-- Whether the pattern matches anywhere in a text. -/
def isFound (p : Pattern) (text : String) : Bool :=
  let chars := text.toList
  p.run chars ((1 <<< (chars.length + 1)) - 1) ≠ 0

end Pattern

end TransitionRules
