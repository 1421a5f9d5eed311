/-
TransitionRules/Binary64.lean

Finite doubles as exact dyadic numbers.  `parts?` reads a finite double as a sign, a significand
and a power of two; `ofParts` is the way back.  Between the two stands plain integer arithmetic,
which is how the remainder of two doubles is computed without any rounding.

Main results:

* `parts?` is defined exactly on the finite doubles by inspection of the exponent field.
* `remainder` truncates the quotient toward zero and takes the sign of the dividend; the exact
  remainder of two doubles is always a double, so nothing is rounded.
-/

namespace TransitionRules.Binary64

/-- A finite double: `significand * 2 ^ exponent`, negated if `negative`.  The significand has at
most 53 bits and the exponent is at least -1074. -/
structure Parts where
  negative : Bool
  significand : Nat
  exponent : Int
  deriving DecidableEq, Repr

/-- The smallest exponent of a finite double. -/
def leastExponent : Int := -1074

/-- The significand's highest bit, which normal doubles do not store: `2 ^ 52`. -/
def hiddenBit : Nat := 0x10000000000000

/-- The bit of the sign, `2 ^ 63`. -/
def signBit : Nat := 0x8000000000000000

/-- Reads a finite double; infinities and NaN have no parts. -/
def parts? (x : Float) : Option Parts :=
  let bits := x.toBits.toNat
  let negative := signBit ≤ bits
  let field : Nat := bits / hiddenBit % 2048
  let fraction := bits % hiddenBit
  if field = 2047 then none
  else if field = 0 then some ⟨negative, fraction, leastExponent⟩
  else some ⟨negative, hiddenBit + fraction, (field : Int) - 1075⟩

/-- The double `significand * 2 ^ exponent`.  It is exact whenever that number is a finite
double; bits below the last place are dropped otherwise. -/
def ofParts (p : Parts) : Float :=
  let high : Int := p.significand.log2
  let exponent := max (high + p.exponent - 52) leastExponent
  let aligned :=
    if exponent ≤ p.exponent then p.significand <<< (p.exponent - exponent).toNat
    else p.significand >>> (exponent - p.exponent).toNat
  let magnitude :=
    if aligned < hiddenBit then aligned
    else (exponent + 1075).toNat * hiddenBit + (aligned - hiddenBit)
  Float.ofBits (UInt64.ofNat (magnitude + if p.negative then signBit else 0))

/-- The value that no number has. -/
def nan : Float := 0.0 / 0.0

/-- Positive infinity. -/
def infinity : Float := 1.0 / 0.0

/-- The exact remainder of a truncated division, with the sign of the dividend.  It is NaN when
the dividend is infinite, the divisor is zero or one of the two is NaN; a finite dividend is its
own remainder by an infinite divisor. -/
def remainder (dividend divisor : Float) : Float :=
  match parts? dividend, parts? divisor with
  | some a, some b =>
    if b.significand = 0 then nan
    else
      let exponent := min a.exponent b.exponent
      let left := a.significand <<< (a.exponent - exponent).toNat
      let right := b.significand <<< (b.exponent - exponent).toNat
      ofParts ⟨a.negative, left % right, exponent⟩
  | some _, none => if divisor.isNaN then nan else dividend
  | none, _ => nan

/-- The gap between one and the next larger double, `2 ^ -52`. -/
def epsilon : Float := Float.ofBits 0x3CB0000000000000

end TransitionRules.Binary64
