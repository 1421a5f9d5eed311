/-
TransitionRules/Text/Category.lean

General categories of characters and the classes that are made of them: letters with case, marks
that the case rules look through, digits, word characters and white space.
-/
import TransitionRules.Text.CategoryTable

namespace TransitionRules.Text

/-- The general categories. -/
inductive Category where
  | upperLetter | lowerLetter | titleLetter | modifierLetter | otherLetter
  | nonspacingMark | spacingMark | enclosingMark
  | decimalNumber | letterNumber | otherNumber
  | connector | dash | openMark | closeMark | initialQuote | finalQuote | otherPunctuation
  | mathSymbol | currencySymbol | modifierSymbol | otherSymbol
  | spaceSeparator | lineSeparator | paragraphSeparator
  | control | format | privateUse | surrogate | unassigned
  deriving DecidableEq, Repr

namespace Category

/-- The category of a letter of the run table. -/
def ofLetter? : Char → Option Category
  | 'A' => some upperLetter
  | 'B' => some lowerLetter
  | 'C' => some titleLetter
  | 'D' => some modifierLetter
  | 'E' => some otherLetter
  | 'F' => some nonspacingMark
  | 'G' => some spacingMark
  | 'H' => some enclosingMark
  | 'I' => some decimalNumber
  | 'J' => some letterNumber
  | 'K' => some otherNumber
  | 'L' => some connector
  | 'M' => some dash
  | 'N' => some openMark
  | 'O' => some closeMark
  | 'P' => some initialQuote
  | 'Q' => some finalQuote
  | 'R' => some otherPunctuation
  | 'S' => some mathSymbol
  | 'T' => some currencySymbol
  | 'U' => some modifierSymbol
  | 'V' => some otherSymbol
  | 'W' => some spaceSeparator
  | 'X' => some lineSeparator
  | 'Y' => some paragraphSeparator
  | 'Z' => some control
  | 'a' => some format
  | 'b' => some privateUse
  | 'c' => some surrogate
  | 'd' => some unassigned
  | _ => none

/-- Letters that have a case of their own. -/
def isCasedLetter : Category → Bool
  | upperLetter | lowerLetter | titleLetter => true
  | _ => false

/-- All letters. -/
def isLetter : Category → Bool
  | upperLetter | lowerLetter | titleLetter | modifierLetter | otherLetter => true
  | _ => false

/-- All marks. -/
def isMark : Category → Bool
  | nonspacingMark | spacingMark | enclosingMark => true
  | _ => false

/-- All numbers. -/
def isNumber : Category → Bool
  | decimalNumber | letterNumber | otherNumber => true
  | _ => false

/-- All punctuation. -/
def isPunctuation : Category → Bool
  | connector | dash | openMark | closeMark | initialQuote | finalQuote | otherPunctuation => true
  | _ => false

/-- All symbols. -/
def isSymbol : Category → Bool
  | mathSymbol | currencySymbol | modifierSymbol | otherSymbol => true
  | _ => false

/-- All separators. -/
def isSeparator : Category → Bool
  | spaceSeparator | lineSeparator | paragraphSeparator => true
  | _ => false

/-- Controls, formats, surrogates, private use and code points without a character. -/
def isOther : Category → Bool
  | control | format | privateUse | surrogate | unassigned => true
  | _ => false

end Category

/-- A run of code points of one category: it ends before `stop`. -/
structure CategoryRun where
  stop : Nat
  category : Category

/-- Decodes runs: the category read last, the digits of its length so far, and the code point
at which its run begins. -/
def decodeRuns : Option Category → Nat → Nat → List Char → List CategoryRun
  | none, _, _, [] => []
  | some category, length, start, [] => [⟨start + max length 1, category⟩]
  | pending, length, start, c :: rest =>
    if c.isDigit then decodeRuns pending (10 * length + (c.toNat - 48)) start rest
    else
      match pending with
      | none => decodeRuns (Category.ofLetter? c) 0 start rest
      | some category =>
        let stop := start + max length 1
        ⟨stop, category⟩ :: decodeRuns (Category.ofLetter? c) 0 stop rest

/-- The run table, decoded. -/
def categoryTable : List CategoryRun :=
  decodeRuns none 0 0 (categoryRuns.flatMap String.toList)

/-- The general category of a character. -/
def category (c : Char) : Category :=
  match categoryTable.find? (fun run => c.toNat < run.stop) with
  | some run => run.category
  | none => .unassigned

/-! ### Classes -/

/-- Enclosed letters, which count as alphabetic. -/
def isEnclosedLetter (c : Char) : Bool :=
  let n := c.toNat
  (0x24B6 ≤ n ∧ n ≤ 0x24E9) ∨ (0x1F130 ≤ n ∧ n ≤ 0x1F149) ∨ (0x1F150 ≤ n ∧ n ≤ 0x1F169) ∨
    (0x1F170 ≤ n ∧ n ≤ 0x1F189)

/-- Characters with case that are no letters with case by category: ordinal indicators, Roman
numerals and enclosed letters. -/
def isOtherCased (c : Char) : Bool :=
  let n := c.toNat
  n = 0xAA ∨ n = 0xBA ∨ (0x2160 ≤ n ∧ n ≤ 0x217F) ∨ isEnclosedLetter c

/-- Punctuation that stands inside a word. -/
def isMidWord (c : Char) : Bool :=
  [0x27, 0x2E, 0x3A, 0xB7, 0x387, 0x55F, 0x5F4, 0x2018, 0x2019, 0x2024, 0x2027, 0xFE13, 0xFE52,
    0xFE55, 0xFF07, 0xFF0E, 0xFF1A].contains c.toNat

/-- Characters that the rules of case look through. -/
def isCaseIgnorable (c : Char) : Bool :=
  match category c with
  | .nonspacingMark | .enclosingMark | .format | .modifierLetter | .modifierSymbol => true
  | _ => isMidWord c

/-- Characters that have an upper, lower or title case, those looked through excepted. -/
def isCased (c : Char) : Bool :=
  ((category c).isCasedLetter || isOtherCased c) && !isCaseIgnorable c

/-- Spacing and modifying characters that extend the character before them: parts of vowel signs,
tone marks of wide scripts and half-width voicing marks. -/
def isExtendingSpacingMark (c : Char) : Bool :=
  [(0x09BE, 0x09BE), (0x09D7, 0x09D7), (0x0B3E, 0x0B3E), (0x0B57, 0x0B57), (0x0BBE, 0x0BBE),
    (0x0BD7, 0x0BD7), (0x0CC0, 0x0CC0), (0x0CC2, 0x0CC2), (0x0CC7, 0x0CC8), (0x0CCA, 0x0CCB),
    (0x0CD5, 0x0CD6), (0x0D3E, 0x0D3E), (0x0D57, 0x0D57), (0x0DCF, 0x0DCF), (0x0DDF, 0x0DDF),
    (0x1715, 0x1715), (0x1734, 0x1734), (0x1B35, 0x1B35), (0x1B3B, 0x1B3B), (0x1B3D, 0x1B3D),
    (0x1B43, 0x1B44), (0x1BAA, 0x1BAA), (0x1BF2, 0x1BF3), (0x302E, 0x302F), (0xA953, 0xA953),
    (0xA9C0, 0xA9C0), (0xFF9E, 0xFF9F), (0x111C0, 0x111C0), (0x11235, 0x11235),
    (0x1133E, 0x1133E), (0x1134D, 0x1134D), (0x11357, 0x11357), (0x114B0, 0x114B0),
    (0x114BD, 0x114BD), (0x115AF, 0x115AF), (0x116B6, 0x116B6), (0x11930, 0x11930),
    (0x1193D, 0x1193D), (0x16FF0, 0x16FF1), (0x1D165, 0x1D166), (0x1D16D, 0x1D172)].any
    fun range : Nat × Nat => range.1 ≤ c.toNat ∧ c.toNat ≤ range.2

/-- Decimal digits of any script. -/
def isDecimalDigit (c : Char) : Bool := category c = .decimalNumber

/-- White space. -/
def isWhiteSpace (c : Char) : Bool :=
  let n := c.toNat
  (9 ≤ n ∧ n ≤ 13) ∨ n = 0x20 ∨ n = 0x85 ∨ n = 0xA0 ∨ n = 0x1680 ∨ (0x2000 ≤ n ∧ n ≤ 0x200A) ∨
    n = 0x2028 ∨ n = 0x2029 ∨ n = 0x202F ∨ n = 0x205F ∨ n = 0x3000

/-- Letters, marks, decimal digits, letter numbers, connectors and the two joiners. -/
def isWord (c : Char) : Bool :=
  let k := category c
  k.isLetter || k.isMark || k = .decimalNumber || k = .letterNumber || k = .connector ||
    c.toNat = 0x200C || c.toNat = 0x200D || isEnclosedLetter c

end TransitionRules.Text
