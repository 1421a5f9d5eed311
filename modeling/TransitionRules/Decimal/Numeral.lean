/-
TransitionRules/Decimal/Numeral.lean

Reading decimal numerals as doubles, rounded to the nearest.  A numeral has digits on at least one
side of its point and may have an exponent.
-/
import TransitionRules.Binary64

namespace TransitionRules.Decimal

/-- The double nearest to `digits * 10 ^ exponent`.  Beyond the range of doubles it is infinite or
zero. -/
def nearest (digits : Nat) (exponent : Int) : Float :=
  if digits = 0 then 0.0
  else if 310 < exponent then Binary64.infinity
  else if exponent + Nat.log2 digits / 3 < -330 then 0.0
  else if 0 ≤ exponent then Float.ofScientific digits false exponent.toNat
  else Float.ofScientific digits true (-exponent).toNat

/-- The natural number of a list of decimal digits. -/
def natural (digits : List Char) : Nat :=
  digits.foldl (fun n c => 10 * n + (c.toNat - 48)) 0

/-- A sign in front of a text: whether it is a minus sign, and what follows. -/
def splitSign : List Char → Bool × List Char
  | '-' :: rest => (true, rest)
  | '+' :: rest => (false, rest)
  | rest => (false, rest)

/-- The exponent at the end of a numeral; an absent one is zero. -/
def exponent? : List Char → Option Int
  | [] => some 0
  | mark :: rest =>
    let (negative, digits) := splitSign rest
    if (mark = 'e' ∨ mark = 'E') ∧ !digits.isEmpty ∧ digits.all Char.isDigit then
      some (if negative then -(natural digits : Int) else natural digits)
    else none

/-- The double of a numeral. -/
def read? (text : List Char) : Option Float := do
  let (negative, rest) := splitSign text
  let whole := rest.takeWhile Char.isDigit
  let rest := rest.dropWhile Char.isDigit
  let (fraction, rest) :=
    match rest with
    | '.' :: rest => (rest.takeWhile Char.isDigit, rest.dropWhile Char.isDigit)
    | rest => ([], rest)
  if whole.isEmpty ∧ fraction.isEmpty then none
  else
    let exponent ← exponent? rest
    let x := nearest (natural (whole ++ fraction)) (exponent - fraction.length)
    some (if negative then -x else x)

end TransitionRules.Decimal
