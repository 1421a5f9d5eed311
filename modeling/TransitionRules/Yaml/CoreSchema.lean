/-
TransitionRules/Yaml/CoreSchema.lean

What scalars stand for.  A plain scalar is null, a truth value or a number if it looks like one,
and a string otherwise; a tag of the core schema decides which of them it has to be.
-/
import TransitionRules.Decimal.Numeral
import TransitionRules.Json.Basic
import TransitionRules.Yaml.Token

namespace TransitionRules.Yaml

/-- Whether a plain scalar is null. -/
def isNull (text : String) : Bool := ["", "~", "null", "Null", "NULL"].contains text

/-- The truth value of a plain scalar. -/
def bool? (text : String) : Option Bool :=
  if ["true", "True", "TRUE"].contains text then some true
  else if ["false", "False", "FALSE"].contains text then some false
  else none

/-! ### Integers -/

/-- The value of a digit in a base up to sixteen. -/
def digit? (base : Nat) (c : Char) : Option Nat :=
  let value :=
    if c.isDigit then c.toNat - 48
    else if 'a' ≤ c ∧ c ≤ 'f' then c.toNat - 87
    else if 'A' ≤ c ∧ c ≤ 'F' then c.toNat - 55
    else base
  if value < base then some value else none

/-- The natural number of a text of digits, at least one. -/
def natural? (base : Nat) (text : List Char) : Option Nat := do
  let digits ← text.mapM (digit? base)
  if digits.isEmpty then none else some (digits.foldl (fun n d => base * n + d) 0)

/-- The natural number of a text that names its base. -/
def prefixed? : List Char → Option Nat
  | '0' :: 'x' :: rest => natural? 16 rest
  | '0' :: 'o' :: rest => natural? 8 rest
  | '0' :: 'b' :: rest => natural? 2 rest
  | _ => none

/-- Whether a text of digits is kept as a string because it begins with a zero. -/
def isPadded (text : List Char) : Bool :=
  let (_, digits) := Decimal.splitSign text
  1 < digits.length && digits.head? = some '0' && digits.all Char.isDigit

/-- The magnitude of an integer after its sign, in a base it names or in base ten. -/
def magnitude? (padded : Bool) (text : List Char) : Option Nat :=
  (prefixed? text).or (if padded then none else natural? 10 text)

/-- A natural number of at most 128 bits. -/
def natural128? (n : Nat) : Option Int :=
  if n < 0x100000000000000000000000000000000 then some n else none

/-- The integer of a plain scalar, of at most 128 bits. -/
def integer? (text : List Char) : Option Int :=
  match text with
  | '-' :: rest =>
    (magnitude? (isPadded text) rest).bind fun n =>
      if n ≤ 0x80000000000000000000000000000000 then some (-(n : Int)) else none
  | '+' :: rest =>
    (magnitude? (isPadded text) rest).bind natural128?
  | rest => (magnitude? (isPadded text) rest).bind natural128?

/-- An integer as data; one beyond 64 bits has no place there. -/
def integerData (n : Int) : Except Fault Json :=
  match Number.ofInt? n with
  | some n => .ok (.number n)
  | none => .error .scalar

/-! ### Doubles -/

/-- The double of a plain scalar. -/
def float? (text : String) : Option Float :=
  if [".inf", ".Inf", ".INF", "+.inf", "+.Inf", "+.INF"].contains text then
    some Binary64.infinity
  else if ["-.inf", "-.Inf", "-.INF"].contains text then some (-Binary64.infinity)
  else if [".nan", ".NaN", ".NAN"].contains text then some Binary64.nan
  else (Decimal.read? text.toList).filter Float.isFinite

/-- A double as data: null if it is not finite. -/
def floatData (x : Float) : Json :=
  match Number.ofFloat? x with
  | some n => .number n
  | none => .null

/-! ### Scalars -/

/-- The data of a plain scalar without a tag. -/
def plainData (text : String) : Except Fault Json :=
  if isNull text then .ok .null
  else
    match bool? text, integer? text.toList with
    | some b, _ => .ok (.bool b)
    | none, some n => integerData n
    | none, none =>
      if isPadded text.toList then .ok (.string text)
      else
        match float? text with
        | some x => .ok (floatData x)
        | none => .ok (.string text)

/-- The data of a scalar.  A tag that is not of the core schema makes a string, unless it is a
local one, for which there is no data. -/
def scalarData (text : String) (style : Style) (tag : Option String) : Except Fault Json :=
  match tag with
  | none => if style = .plain then plainData text else .ok (.string text)
  | some "tag:yaml.org,2002:bool" =>
    match bool? text with
    | some b => .ok (.bool b)
    | none => .error .scalar
  | some "tag:yaml.org,2002:int" =>
    match integer? text.toList with
    | some n => integerData n
    | none => .error .scalar
  | some "tag:yaml.org,2002:float" =>
    match float? text with
    | some x => .ok (floatData x)
    | none => .error .scalar
  | some "tag:yaml.org,2002:null" =>
    if isNull text && !text.isEmpty then .ok .null else .error .scalar
  | some tag => if tag.startsWith "!" then .error .tag else .ok (.string text)

end TransitionRules.Yaml
