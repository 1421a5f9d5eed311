/-
TransitionRules/Decimal/Layout.lean

Writing a double as text.  `Layout` collects the decisions of one written form: where positional
notation ends, whether an integral number keeps a decimal point, how a tie between two shortest
numerals goes, and the words for what is not a number.  `Layout.write` is the one writer.
-/
import TransitionRules.Decimal.Shortest

namespace TransitionRules.Decimal

/-- The decisions of one written form of doubles. -/
structure Layout where
  tie : Tie
  /-- The first digit's exponents that are written positionally; `none` for all of them. -/
  positional : Option (Int × Int)
  /-- Whether an integral number is written with a final `.0`. -/
  point : Bool
  infinite : String
  nan : String

namespace Layout

/-- Digits without exponent: zeros are added on either side as the position asks. -/
def placed (point : Bool) (digits : List Char) (leading : Int) : List Char :=
  if leading < 0 then
    '0' :: '.' :: (List.replicate (-leading - 1).toNat '0' ++ digits)
  else
    let whole := leading.toNat + 1
    if digits.length ≤ whole then
      digits ++ List.replicate (whole - digits.length) '0' ++ (if point then ['.', '0'] else [])
    else digits.take whole ++ '.' :: digits.drop whole

/-- One digit before the point and a signed exponent. -/
def scientific (digits : List Char) (leading : Int) : List Char :=
  let fraction := digits.drop 1
  digits.take 1 ++ (if fraction.isEmpty then [] else '.' :: fraction) ++
    ['e', if leading < 0 then '-' else '+'] ++ (toString leading.natAbs).toList

/-- The text of a double's magnitude. -/
def magnitude (layout : Layout) (p : Binary64.Parts) : List Char :=
  if p.significand = 0 then '0' :: if layout.point then ['.', '0'] else []
  else
    let numeral := shortest layout.tie p
    let digits := Nat.toDigits 10 numeral.digits
    let leading := numeral.exponent + (digits.length : Int) - 1
    match layout.positional with
    | none => placed layout.point digits leading
    | some (least, greatest) =>
      if least ≤ leading ∧ leading ≤ greatest then placed layout.point digits leading
      else scientific digits leading

/-- The text of a double. -/
def write (layout : Layout) (x : Float) : String :=
  match Binary64.parts? x with
  | some p => String.ofList ((if p.negative then ['-'] else []) ++ layout.magnitude p)
  | none =>
    if x.isNaN then layout.nan
    else if x < 0.0 then "-" ++ layout.infinite
    else layout.infinite

end Layout

end TransitionRules.Decimal
