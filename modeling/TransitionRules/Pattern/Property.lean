/-
TransitionRules/Pattern/Property.lean

The names by which a pattern asks for properties of characters.  Names are compared without regard
to case, blanks, hyphens and underscores, and a leading `is` does not count.
-/
import TransitionRules.Pattern.Basic

namespace TransitionRules.Pattern.Property

/-- A name in the form in which names are compared. -/
def normalName (name : List Char) : String :=
  let plain := (name.map Char.toLower).filter fun c => c ≠ ' ' ∧ c ≠ '_' ∧ c ≠ '-' ∧ c.toNat < 128
  let prefixed := (name.take 2).map Char.toLower = ['i', 's']
  if prefixed ∧ plain ≠ ['i', 's', 'c'] then String.ofList (plain.drop 2) else String.ofList plain

/-- The general categories by name. -/
def categoryNames : List (List String × Property) :=
  [(["lu", "uppercaseletter"], .category .upperLetter),
    (["ll", "lowercaseletter"], .category .lowerLetter),
    (["lt", "titlecaseletter"], .category .titleLetter),
    (["lm", "modifierletter"], .category .modifierLetter),
    (["lo", "otherletter"], .category .otherLetter),
    (["l", "letter"], .letter),
    (["lc", "casedletter"], .casedLetter),
    (["mn", "nonspacingmark"], .category .nonspacingMark),
    (["mc", "spacingmark"], .category .spacingMark),
    (["me", "enclosingmark"], .category .enclosingMark),
    (["m", "mark", "combiningmark"], .mark),
    (["nd", "decimalnumber", "digit"], .category .decimalNumber),
    (["nl", "letternumber"], .category .letterNumber),
    (["no", "othernumber"], .category .otherNumber),
    (["n", "number"], .number),
    (["pc", "connectorpunctuation"], .category .connector),
    (["pd", "dashpunctuation"], .category .dash),
    (["ps", "openpunctuation"], .category .openMark),
    (["pe", "closepunctuation"], .category .closeMark),
    (["pi", "initialpunctuation"], .category .initialQuote),
    (["pf", "finalpunctuation"], .category .finalQuote),
    (["po", "otherpunctuation"], .category .otherPunctuation),
    (["p", "punct", "punctuation"], .punctuation),
    (["sm", "mathsymbol"], .category .mathSymbol),
    (["sc", "currencysymbol"], .category .currencySymbol),
    (["sk", "modifiersymbol"], .category .modifierSymbol),
    (["so", "othersymbol"], .category .otherSymbol),
    (["s", "symbol"], .symbol),
    (["zs", "spaceseparator"], .category .spaceSeparator),
    (["zl", "lineseparator"], .category .lineSeparator),
    (["zp", "paragraphseparator"], .category .paragraphSeparator),
    (["z", "separator"], .separator),
    (["cc", "cntrl", "control"], .category .control),
    (["cf", "format"], .category .format),
    (["co", "privateuse"], .category .privateUse),
    (["cn", "unassigned"], .category .unassigned),
    (["c", "other"], .other),
    (["any"], .any),
    (["assigned"], .assigned),
    (["ascii"], .ascii)]

/-- The scripts by name. -/
def scriptNames : List (List String × Property) :=
  [(["latin", "latn"], .script .latin), (["greek", "grek"], .script .greek),
    (["cyrillic", "cyrl"], .script .cyrillic), (["hebrew", "hebr"], .script .hebrew),
    (["arabic", "arab"], .script .arabic), (["thai"], .script .thai),
    (["hangul", "hang"], .script .hangul), (["hiragana", "hira"], .script .hiragana),
    (["katakana", "kana"], .script .katakana), (["han", "hani"], .script .han)]

/-- Properties that are neither categories nor scripts, by name. -/
def binaryNames : List (List String × Property) :=
  [(["alphabetic", "alpha"], .alphabetic), (["lowercase", "lower"], .lowercase),
    (["uppercase", "upper"], .uppercase), (["whitespace", "wspace", "space"], .space),
    (["asciihexdigit", "ahex"], .asciiHexDigit)]

/-- Looks a name up among groups of names for one property. -/
def lookUp (name : String) (table : List (List String × Property)) : Option Property :=
  (table.find? fun entry => entry.1.contains name).map (·.2)

/-- The property of a name that stands alone. -/
def named? (name : List Char) : Option Property :=
  let key := normalName name
  (lookUp key binaryNames).or ((lookUp key categoryNames).or (lookUp key scriptNames))

/-- The property of a name and a value. -/
def valued? (name value : List Char) : Option Property :=
  let key := normalName value
  match normalName name with
  | "gc" | "generalcategory" => lookUp key categoryNames
  | "sc" | "script" | "scx" | "scriptextensions" => lookUp key scriptNames
  | _ => none

/-- The two sides of the first place where a separator stands. -/
def splitAt? (separator : List Char) (before : List Char) :
    List Char → Option (List Char × List Char)
  | [] => none
  | c :: rest =>
    if separator.isPrefixOf (c :: rest) then
      some (before.reverse, (c :: rest).drop separator.length)
    else splitAt? separator (c :: before) rest

/-- The property that stands between braces; the flag tells whether it is negated there. -/
def ofText? (text : List Char) : Option (Property × Bool) :=
  match splitAt? ['!', '='] [] text with
  | some (name, value) => (valued? name value).map (·, true)
  | none =>
    match (splitAt? [':'] [] text).or (splitAt? ['='] [] text) with
    | some (name, value) => (valued? name value).map (·, false)
    | none => (named? text).map (·, false)

end TransitionRules.Pattern.Property
