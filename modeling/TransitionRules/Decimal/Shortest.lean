/-
TransitionRules/Decimal/Shortest.lean

The shortest decimal numeral of a double: the fewest significant digits that read back as the same
double, and among numerals with that many digits the one nearest to it.

All decisions are comparisons of natural numbers.  A double `m * 2 ^ q` is written in quarter
units of its last place, `4 * m * 2 ^ (q - 2)`; the reals that round to it reach half a unit up,
and half a unit down or a quarter unit below a power of two.  The ends of that interval belong to
it exactly when `m` is even.

For 1, 2, ... digits `candidate?` tests the two neighbours of the double on the grid of numerals
with that many digits.  If any point of a grid lies in the interval then one of these two does, so
the first grid that answers is the coarsest possible one.
-/
import TransitionRules.Binary64

namespace TransitionRules.Decimal

open Binary64 (Parts leastExponent)

/-- What to do with a double that lies exactly half way between two numerals. -/
inductive Tie where
  | toEven
  | up
  deriving DecidableEq, Repr

/-- The decimal number `digits * 10 ^ exponent`. -/
structure Numeral where
  digits : Nat
  exponent : Int
  deriving DecidableEq, Repr

/-- The reals that round to a double, in quarter units of its last place. -/
structure Rounding where
  low : Nat
  value : Nat
  high : Nat
  /-- Whether the two ends round to the double as well. -/
  inclusive : Bool
  /-- The unit is `2 ^ unit`. -/
  unit : Int

/-- The interval of a nonzero finite double. -/
def Rounding.of (p : Parts) : Rounding where
  low :=
    if p.significand = Binary64.hiddenBit ∧ leastExponent < p.exponent then 4 * p.significand - 1
    else 4 * p.significand - 2
  value := 4 * p.significand
  high := 4 * p.significand + 2
  inclusive := p.significand % 2 = 0
  unit := p.exponent - 2

/-- The factors that bring `x * 10 ^ k` and `y * 2 ^ u` to the common scale `x * fst`, `y * snd`. -/
def commonScale (k u : Int) : Nat × Nat :=
  (Nat.pow 10 k.toNat <<< (-u).toNat, Nat.pow 10 (-k).toNat <<< u.toNat)

/-- Whether `digits * 10 ^ k` rounds to the double. -/
def Rounding.holds (r : Rounding) (k : Int) (digits : Nat) : Bool :=
  let (ten, two) := commonScale k r.unit
  if r.inclusive then r.low * two ≤ digits * ten ∧ digits * ten ≤ r.high * two
  else r.low * two < digits * ten ∧ digits * ten < r.high * two

/-- The nearest numeral on the grid of multiples of `10 ^ k` that reads back, if there is one. -/
def Rounding.candidate? (r : Rounding) (tie : Tie) (k : Int) : Option Numeral :=
  let (ten, two) := commonScale k r.unit
  let below := r.value * two / ten
  let above := below + 1
  match r.holds k below, r.holds k above with
  | false, false => none
  | true, false => some ⟨below, k⟩
  | false, true => some ⟨above, k⟩
  | true, true =>
    let toBelow := r.value * two - below * ten
    let toAbove := above * ten - r.value * two
    if toBelow < toAbove then some ⟨below, k⟩
    else if toAbove < toBelow then some ⟨above, k⟩
    else match tie with
      | .up => some ⟨above, k⟩
      | .toEven => some ⟨if below % 2 = 0 then below else above, k⟩

/-- The exponent of the first significant digit: the double lies in
`[10 ^ e, 10 ^ (e + 1))`.  No finite double but zero is below `10 ^ -324`. -/
def leadingExponent (p : Parts) : Int :=
  let scaled := (p.significand * Nat.pow 10 324) <<< p.exponent.toNat >>> (-p.exponent).toNat
  ((Nat.toDigits 10 scaled).length : Int) - 325

/-- The first numeral found with at least `digits` digits, trying `steps` digit counts. -/
def search (r : Rounding) (tie : Tie) (leading : Int) : Nat → Nat → Numeral
  | digits, 0 => ⟨r.value, leading - digits⟩
  | digits, steps + 1 =>
    match r.candidate? tie (leading - digits + 1) with
    | some numeral => numeral
    | none => search r tie leading (digits + 1) steps

/-- Drops trailing zeros of the digits, at most `steps` of them. -/
def Numeral.trim : Nat → Numeral → Numeral
  | 0, n => n
  | steps + 1, n => if n.digits % 10 = 0 then trim steps ⟨n.digits / 10, n.exponent + 1⟩ else n

/-- The shortest numeral of a nonzero finite double.  Seventeen digits always suffice. -/
def shortest (tie : Tie) (p : Parts) : Numeral :=
  (search (Rounding.of p) tie (leadingExponent p) 1 17).trim 18

end TransitionRules.Decimal
