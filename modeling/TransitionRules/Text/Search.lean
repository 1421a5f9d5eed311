/-
TransitionRules/Text/Search.lean

Looking for one text inside another, and cutting a text at a separator.
-/

namespace TransitionRules.Text

/-- Whether `part` occurs in a text, as consecutive characters. -/
def occursIn (part : List Char) : List Char → Bool
  | [] => part.isEmpty
  | c :: rest => part.isPrefixOf (c :: rest) || occursIn part rest

/-- Whether a text contains another one. -/
def contains (text part : String) : Bool := occursIn part.toList text.toList

/-- Whether a text begins with another one. -/
def startsWith (text part : String) : Bool := part.toList.isPrefixOf text.toList

/-- Whether a text ends with another one. -/
def endsWith (text part : String) : Bool := part.toList.isSuffixOf text.toList

/-- The pieces of a text between separators; there is always at least one. -/
def cut (separator : Char) : List Char → List (List Char)
  | [] => [[]]
  | c :: rest =>
    if c = separator then [] :: cut separator rest
    else
      match cut separator rest with
      | [] => [[c]]
      | piece :: pieces => (c :: piece) :: pieces

/-- The segments of a dotted text. -/
def segments (text : String) : List String := (cut '.' text.toList).map String.ofList

end TransitionRules.Text
