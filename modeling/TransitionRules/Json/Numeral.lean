/-
TransitionRules/Json/Numeral.lean

Reading the numerals of JSON text.  `Numeral.scan?` splits a numeral off the front of a text;
`Numeral.value?` gives its number.

A numeral without point and exponent is an integer when it fits 64 bits, signed or unsigned.
Every other numeral is a double, computed as follows: as many leading digits as fit 64 bits make
the significand, on either side of the point, the significand is rounded to a double, and that
double is multiplied or divided by a power of ten.  A numeral too large for a double has no value.
-/
import TransitionRules.Json.Basic

namespace TransitionRules.Json

/-- The parts of a numeral as written. -/
structure Numeral where
  negative : Bool
  whole : List Char
  /-- The digits after the point, if there is a point. -/
  fraction : Option (List Char)
  /-- The sign and the digits of the exponent, if there is one. -/
  power : Option (Bool × List Char)

namespace Numeral

/-- The digits at the front of a text and what follows them. -/
def spanDigits (text : List Char) : List Char × List Char :=
  (text.takeWhile Char.isDigit, text.dropWhile Char.isDigit)

/-- The fraction at the front of a text: a point has to be followed by a digit. -/
def scanFraction? : List Char → Option (Option (List Char) × List Char)
  | '.' :: rest =>
    let (digits, rest) := spanDigits rest
    if digits.isEmpty then none else some (some digits, rest)
  | text => some (none, text)

/-- The exponent at the front of a text: its mark has to be followed by a digit. -/
def scanPower? (text : List Char) : Option (Option (Bool × List Char) × List Char) :=
  match text with
  | [] => some (none, [])
  | c :: rest =>
    if c = 'e' ∨ c = 'E' then
      let (negative, rest) :=
        match rest with
        | '-' :: rest => (true, rest)
        | '+' :: rest => (false, rest)
        | rest => (false, rest)
      let (digits, rest) := spanDigits rest
      if digits.isEmpty then none else some (some (negative, digits), rest)
    else some (none, text)

/-- Splits a numeral off the front of a text.  A leading zero stands alone. -/
def scan? (text : List Char) : Option (Numeral × List Char) := do
  let (negative, rest) :=
    match text with
    | '-' :: rest => (true, rest)
    | rest => (false, rest)
  let (whole, rest) := spanDigits rest
  if whole.isEmpty ∨ (whole.length ≠ 1 ∧ whole.head? = some '0') then none
  else
    let (fraction, rest) ← scanFraction? rest
    let (power, rest) ← scanPower? rest
    some (⟨negative, whole, fraction, power⟩, rest)

/-- The natural number of a list of decimal digits. -/
def natural (digits : List Char) : Nat :=
  digits.foldl (fun n c => 10 * n + (c.toNat - 48)) 0

/-- The longest run of leading digits that, appended to `start`, stays below `2 ^ 64`, and the
digits left over. -/
def significand (start : Nat) : List Char → Nat × List Char
  | [] => (start, [])
  | c :: rest =>
    let next := 10 * start + (c.toNat - 48)
    if next < 0x10000000000000000 then significand next rest else (start, c :: rest)

/-- A power of ten as a double, for exponents up to 308. -/
def powerOfTen (exponent : Nat) : Float := Float.ofScientific 1 false exponent

/-- Divides by `1e308` until the exponent is in reach of one division, at most `steps` times; a
value that has become zero stays zero. -/
def divideDown (x : Float) (exponent : Nat) : Nat → Float
  | 0 => x
  | steps + 1 =>
    if exponent ≤ 308 then x / powerOfTen exponent
    else if x == 0.0 then x
    else divideDown (x / powerOfTen 308) (exponent - 308) steps

/-- A double times a power of ten, if that is finite. -/
def scale? (x : Float) (exponent : Int) : Option Float :=
  if exponent < 0 then some (divideDown x (-exponent).toNat 4)
  else if exponent ≤ 308 then
    let scaled := x * powerOfTen exponent.toNat
    if scaled.isFinite then some scaled else none
  else if x == 0.0 then some x
  else none

/-- The double of a numeral. -/
def float? (n : Numeral) : Option Float := do
  let (start, dropped) := significand 0 n.whole
  let fraction := n.fraction.getD []
  let (digits, rest) := significand start fraction
  let kept := fraction.length - rest.length
  let power : Int :=
    match n.power with
    | some (true, digits) => -(natural digits : Int)
    | some (false, digits) => natural digits
    | none => 0
  let x ← scale? (Float.ofNat digits) ((dropped.length : Int) - kept + power)
  some (if n.negative then -x else x)

/-- The number of a numeral. -/
def value? (n : Numeral) : Option Number :=
  if n.fraction.isNone ∧ n.power.isNone then
    let magnitude := natural n.whole
    if n.negative then
      if magnitude = 0 then Number.ofFloat? (-0.0)
      else if magnitude ≤ 0x8000000000000000 then Number.ofInt? (-magnitude)
      else n.float? >>= Number.ofFloat?
    else if magnitude < 0x10000000000000000 then Number.ofInt? magnitude
    else n.float? >>= Number.ofFloat?
  else n.float? >>= Number.ofFloat?

end Numeral

end TransitionRules.Json
