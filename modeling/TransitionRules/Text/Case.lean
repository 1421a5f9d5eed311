/-
TransitionRules/Text/Case.lean

Upper and lower case of texts.  A character may change into several (`ß` into `SS`, `İ` into `i`
with a dot above), and a capital sigma at the end of a word becomes the final form `ς`.
-/
import TransitionRules.Text.Category
import TransitionRules.Text.CaseTable

namespace TransitionRules.Text

/-- Where the runs move a code point; a code point in no run stays. -/
def shiftBy (runs : List CaseRun) (code : Nat) : Nat :=
  match runs.find? (fun run => run.holds code) with
  | some run => ((code : Int) + run.shift).toNat
  | none => code

/-- Upper case of a character. -/
def upperChar (c : Char) : List Char :=
  match upperSequences.lookup c.toNat with
  | some codes => codes.map Char.ofNat
  | none => [Char.ofNat (shiftBy upperRuns c.toNat)]

/-- Lower case of a character on its own. -/
def lowerChar (c : Char) : List Char :=
  if c.toNat = 0x130 then ['i', Char.ofNat 0x307]
  else [Char.ofNat (shiftBy lowerRuns c.toNat)]

/-- Whether a letter with case comes first, once characters the case rules look through are
skipped. -/
def beginsCased (text : List Char) : Bool :=
  match text.dropWhile isCaseIgnorable with
  | c :: _ => isCased c
  | [] => false

/-- Lower case of a text, given the characters before it in reverse order. -/
def lowerFrom (before : List Char) : List Char → List Char
  | [] => []
  | c :: rest =>
    let lowered :=
      if c.toNat = 0x3A3 then
        if beginsCased before && !beginsCased rest then [Char.ofNat 0x3C2]
        else [Char.ofNat 0x3C3]
      else lowerChar c
    lowered ++ lowerFrom (c :: before) rest

/-- The text in lower case. -/
def lowercase (s : String) : String := String.ofList (lowerFrom [] s.toList)

/-- The text in upper case. -/
def uppercase (s : String) : String := String.ofList (s.toList.flatMap upperChar)

/-- The simple case folding of a code point. -/
def foldCode (code : Nat) : Nat := shiftBy foldRuns code

/-- All code points with the same simple case folding as the given one. -/
def foldOrbit (code : Nat) : List Nat :=
  let folded := foldCode code
  folded :: foldRuns.filterMap fun run =>
    let origin := ((folded : Int) - run.shift).toNat
    if run.holds origin ∧ ((origin : Int) + run.shift).toNat = folded then some origin else none

end TransitionRules.Text
