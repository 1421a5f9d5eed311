/-
TransitionRules/Proofs/Json/NumericValue.lean

Equality by value and the numbers that documents denote.  A number of a document denotes a rational
number (`Number.value`).  Two numbers have the same value if they denote the same number, and in one
case more: an integer that no double denotes has the value of the double that it is rounded to
(`Number.sameValue_iff`, `RoundsTo`), because an integer and a double are compared as doubles.

Documents have the same value if they have the same shape, objects taken field by field, and numbers
of the same value in the same places (`Json.sameValue_iff_related`).  So equality by value is reflexive
and symmetric, and on documents without integers of that kind (`Json.Exact`) it is transitive and
compares the numbers that are denoted.  In general it is not transitive: two integers may have the same
double between them.

Main result: `sameValue_numeric`.
-/
import Mathlib.Data.List.Forall2
import TransitionRules.Proofs.Binary64.Nearest
import TransitionRules.Proofs.Json.FloatFree

namespace TransitionRules

/-! ### Numbers -/

namespace Number

/-- The rational number that a number of a document denotes. -/
def value : Number → ℚ
  | .int n _ _ => n
  | .float x _ => Binary64.value x

/-- Some double denotes the number too. -/
def IsDouble (a : Number) : Prop := ∃ x : Float, x.isFinite = true ∧ Binary64.value x = a.value

/-- The first number is an integer that no double denotes, and the second one the double that it is
rounded to. -/
structure RoundsTo (a b : Number) : Prop where
  integer : ∃ n low high, a = .int n low high
  inexact : ¬ a.IsDouble
  rounded : ∃ x finite, b = .float x finite ∧ Binary64.value a.toFloat = Binary64.value x

variable {a b : Number}

theorem isFinite_toFloat (a : Number) : a.toFloat.isFinite = true := by
  cases a with
  | int n low high => exact (Binary64.isNearest_ofInt ⟨low, high⟩).1
  | float x finite => exact finite

/-- The double of a number is a nearest one. -/
theorem isNearest_toFloat (a : Number) : Binary64.IsNearest (Binary64.value a.toFloat) a.value := by
  cases a with
  | int n low high => exact (Binary64.isNearest_ofInt ⟨low, high⟩).2
  | float x finite => exact Binary64.isNearest_self _

/-- The numbers that doubles denote are those of 53 bits. -/
theorem isDouble_iff : a.IsDouble ↔ ∃ m e : Int, |m| < 2 ^ 53 ∧ (m : ℚ) * 2 ^ e = a.value := by
  constructor
  · rintro ⟨x, hfinite, hvalue⟩
    rw [← hvalue]
    exact Binary64.exists_value_eq hfinite
  · rintro ⟨m, e, hbits, hvalue⟩
    exact ⟨a.toFloat, a.isFinite_toFloat, a.isNearest_toFloat.eq hbits hvalue⟩

theorem IsDouble.value_toFloat (h : a.IsDouble) : Binary64.value a.toFloat = a.value := by
  obtain ⟨m, e, hbits, hvalue⟩ := isDouble_iff.mp h
  exact a.isNearest_toFloat.eq hbits hvalue

theorem isDouble_float (x : Float) (finite : x.isFinite = true) : (float x finite).IsDouble :=
  ⟨x, finite, rfl⟩

/-- Integers up to `2 ^ 53` are doubles. -/
theorem isDouble_int {n : Int} {low high} (hn : |n| ≤ 2 ^ 53) : (int n low high).IsDouble := by
  rw [isDouble_iff]
  rcases hn.lt_or_eq with hlt | heq
  · exact ⟨n, 0, hlt, by rw [zpow_zero, mul_one, value]⟩
  · rcases eq_or_eq_neg_of_abs_eq heq with rfl | rfl
    · exact ⟨1, 53, by decide, by norm_num [value]⟩
    · exact ⟨-1, 53, by decide, by norm_num [value]⟩

/-- No double is closer to the integer than the one that it is rounded to. -/
theorem RoundsTo.nearest (h : a.RoundsTo b) {x : Float} (hx : x.isFinite = true) :
    |b.value - a.value| ≤ |Binary64.value x - a.value| := by
  obtain ⟨y, finite, rfl, hrounded⟩ := h.rounded
  obtain ⟨m, e, hbits, hvalue⟩ := Binary64.exists_value_eq hx
  have hnearest := a.isNearest_toFloat m e hbits
  rwa [hrounded, hvalue] at hnearest

/-- Unless both numbers are integers, they are compared as doubles. -/
theorem sameValue_iff_value_toFloat
    (h : (∃ x finite, a = .float x finite) ∨ ∃ x finite, b = .float x finite) :
    a.sameValue b = true ↔ Binary64.value a.toFloat = Binary64.value b.toFloat := by
  have hbeq : a.sameValue b = (a.toFloat == b.toFloat) := by
    rcases h with ⟨x, finite, rfl⟩ | ⟨x, finite, rfl⟩
    · rfl
    · cases a <;> rfl
  rw [hbeq, Binary64.beq_iff_value_eq a.isFinite_toFloat b.isFinite_toFloat]

theorem sameValue_comm (a b : Number) : a.sameValue b = b.sameValue a := by
  rw [Bool.eq_iff_iff]
  match a, b with
  | .int n _ _, .int m _ _ => rw [sameValue, sameValue, beq_iff_eq, beq_iff_eq, eq_comm]
  | .float x finite, b =>
    rw [sameValue_iff_value_toFloat (.inl ⟨x, finite, rfl⟩),
      sameValue_iff_value_toFloat (.inr ⟨x, finite, rfl⟩), eq_comm]
  | a, .float y finite =>
    rw [sameValue_iff_value_toFloat (.inr ⟨y, finite, rfl⟩),
      sameValue_iff_value_toFloat (.inl ⟨y, finite, rfl⟩), eq_comm]

/-- What has the value of a double denotes it or is rounded to it. -/
theorem sameValue_float_iff {x : Float} {finite : x.isFinite = true} :
    a.sameValue (.float x finite) = true ↔
      a.value = Binary64.value x ∨ a.RoundsTo (.float x finite) := by
  rw [sameValue_iff_value_toFloat (.inr ⟨x, finite, rfl⟩)]
  show _ = Binary64.value x ↔ _
  by_cases hdouble : a.IsDouble
  · rw [hdouble.value_toFloat]
    exact ⟨.inl, fun h => h.resolve_right fun hrounds => hrounds.inexact hdouble⟩
  · -- a number that no double denotes is an integer
    have hinteger : ∃ n low high, a = .int n low high := by
      cases a with
      | int n low high => exact ⟨n, low, high, rfl⟩
      | float y finite' => exact absurd (isDouble_float y finite') hdouble
    constructor
    · intro hvalue
      exact .inr ⟨hinteger, hdouble, x, finite, rfl, hvalue⟩
    · rintro (hvalue | ⟨-, -, y, finite', heq, hvalue⟩)
      · exact absurd ⟨x, finite, hvalue.symm⟩ hdouble
      · cases heq
        exact hvalue

/-- Numbers have the same value if they denote the same number, or one is rounded to the other. -/
theorem sameValue_iff :
    a.sameValue b = true ↔ a.value = b.value ∨ a.RoundsTo b ∨ b.RoundsTo a := by
  -- what is rounded is an integer, what it is rounded to is a double
  have hinteger : ∀ {n low high c}, ¬ RoundsTo c (.int n low high) := by
    rintro n low high c ⟨-, -, x, finite, heq, -⟩
    cases heq
  have hfloat : ∀ {x finite c}, ¬ RoundsTo (.float x finite) c :=
    fun h => h.inexact (isDouble_float _ _)
  match a, b with
  | .int n _ _, .int m _ _ =>
    simp only [sameValue, beq_iff_eq, value, Int.cast_inj, hinteger, or_false]
  | a, .float x finite => simp only [sameValue_float_iff, hfloat, or_false, value]
  | .float x finite, b =>
    rw [sameValue_comm, sameValue_float_iff]
    simp only [hfloat, false_or, value, eq_comm]

theorem sameValue_iff_of_isDouble (ha : a.IsDouble) (hb : b.IsDouble) :
    a.sameValue b = true ↔ a.value = b.value := by
  rw [sameValue_iff, or_iff_left]
  rintro (h | h)
  · exact h.inexact ha
  · exact h.inexact hb

end Number

/-! ### Documents -/

namespace Json

/-- The documents have the same shape, and numbers in the same places are related. -/
inductive Related (r : Number → Number → Prop) : Json → Json → Prop
  | null : Related r .null .null
  | bool (b : Bool) : Related r (.bool b) (.bool b)
  | number {a b : Number} (h : r a b) : Related r (.number a) (.number b)
  | string (s : String) : Related r (.string s) (.string s)
  | array {items others : List Json} (h : List.Forall₂ (Related r) items others) :
      Related r (.array items) (.array others)
  | object {fields others : Object}
      (h : ∀ key, Option.Rel (Related r) (fields.get? key) (others.get? key)) :
      Related r (.object fields) (.object others)

/-- Each number in the document is one that a double denotes. -/
inductive Exact : Json → Prop
  | null : Exact .null
  | bool (b : Bool) : Exact (.bool b)
  | number {a : Number} (h : a.IsDouble) : Exact (.number a)
  | string (s : String) : Exact (.string s)
  | array {items : List Json} (h : ∀ item ∈ items, Exact item) : Exact (.array items)
  | object {fields : Object} (h : ∀ name value, fields.get? name = some value → Exact value) :
      Exact (.object fields)

variable {r s : Number → Number → Prop} {first second third : Json}

section Fields

variable {R S T : Json → Json → Prop} {field other another : Option Json}

/-- Fields are related if their values are. -/
theorem rel_imp (h : Option.Rel R field other)
    (himp : ∀ value ∈ field, ∀ found ∈ other, R value found → S value found) :
    Option.Rel S field other := by
  cases h with
  | none => exact .none
  | some hvalue => exact .some (himp _ rfl _ rfl hvalue)

theorem rel_flip (h : Option.Rel (flip R) field other) : Option.Rel R other field := by
  cases h with
  | none => exact .none
  | some hvalue => exact .some hvalue

theorem rel_comp (h : Option.Rel R field other) (h' : Option.Rel S other another)
    (hcomp : ∀ a b c, R a b → S b c → T a c) : Option.Rel T field another := by
  cases h with
  | none => cases h'; exact .none
  | some hvalue =>
    cases h' with
    | some hvalue' => exact .some (hcomp _ _ _ hvalue hvalue')

theorem forall₂_comp {items others thirds : List Json} (h : List.Forall₂ R items others)
    (h' : List.Forall₂ S others thirds) (hcomp : ∀ a b c, R a b → S b c → T a c) :
    List.Forall₂ T items thirds := by
  induction h generalizing thirds with
  | nil => cases h'; exact .nil
  | cons hitem _ ih =>
    cases h' with
    | cons hitem' hrest' => exact .cons (hcomp _ _ _ hitem hitem') (ih hrest')

end Fields

/-- Induction over two related documents. -/
theorem Related.byParts {motive : Json → Json → Prop} (null : motive .null .null)
    (bool : ∀ b, motive (.bool b) (.bool b))
    (number : ∀ a b, r a b → motive (.number a) (.number b))
    (string : ∀ s, motive (.string s) (.string s))
    (array : ∀ items others, List.Forall₂ motive items others →
      motive (.array items) (.array others))
    (object : ∀ fields others : Object,
      (∀ key, Option.Rel motive (fields.get? key) (others.get? key)) →
        motive (.object fields) (.object others))
    (h : first.Related r second) : motive first second :=
  @Related.rec r (fun first second _ => motive first second)
    (fun items others _ => List.Forall₂ motive items others)
    (fun field other _ => Option.Rel motive field other)
    null bool (number _ _) string (fun _ h => array _ _ h) (fun _ h => object _ _ h)
    .nil (fun _ _ h hrest => .cons h hrest) (fun _ h => .some h) .none _ _ h

/-- Documents have the same value if they have the same shape and numbers of the same value in the
same places. -/
theorem sameValue_iff_related :
    first.sameValue second = true ↔ first.Related (fun a b => a.sameValue b = true) second := by
  constructor
  · intro h
    induction first generalizing second with
    | null =>
      cases second with
      | null => exact .null
      | _ => cases h
    | bool b =>
      cases second with
      | bool c =>
        obtain rfl : b = c := beq_iff_eq.mp h
        exact .bool b
      | _ => cases h
    | number a =>
      cases second with
      | number b => exact .number h
      | _ => cases h
    | string s =>
      cases second with
      | string t =>
        obtain rfl : s = t := beq_iff_eq.mp h
        exact .string s
      | _ => cases h
    | array items ih =>
      cases second with
      | array others =>
        -- the comparison of the items and the induction over them, place by place
        have hitems := (List.forall₂_and_left ..).mpr ⟨ih, sameItems_iff.mp h⟩
        exact .array (hitems.imp fun item other hsame => hsame.1 hsame.2)
      | _ => cases h
    | object fields ih =>
      cases second with
      | object others =>
        refine .object fun key => rel_imp (Object.sameValue_iff.mp h key) ?_
        exact fun value hvalue found _ hsame => ih key value hvalue hsame
      | _ => cases h
  · intro h
    apply h.byParts (motive := fun first second => first.sameValue second = true)
    case null => rfl
    case bool => exact fun b => beq_self_eq_true b
    case number => exact fun _ _ hsame => hsame
    case string => exact fun s => beq_self_eq_true s
    case array => exact fun _ _ hitems => sameItems_iff.mpr hitems
    case object => exact fun _ _ hfields => Object.sameValue_iff.mpr hfields

namespace Related

/-- Between documents with exact numbers, only exact numbers count. -/
theorem imp (h : first.Related r second) (hfirst : first.Exact) (hsecond : second.Exact)
    (himp : ∀ a b, a.IsDouble → b.IsDouble → r a b → s a b) : first.Related s second := by
  revert hfirst hsecond
  apply h.byParts (motive := fun first second =>
    first.Exact → second.Exact → first.Related s second)
  case null => exact fun _ _ => .null
  case bool => exact fun b _ _ => .bool b
  case number =>
    intro a b hrelated hfirst hsecond
    cases hfirst with
    | number ha =>
      cases hsecond with
      | number hb => exact .number (himp a b ha hb hrelated)
  case string => exact fun s _ _ => .string s
  case array =>
    intro items others hitems hfirst hsecond
    cases hfirst with
    | array hexact =>
      cases hsecond with
      | array hexact' =>
        obtain ⟨hlength, hpairs⟩ := List.forall₂_iff_zip.mp hitems
        refine .array (List.forall₂_iff_zip.mpr ⟨hlength, fun {item other} hpair => ?_⟩)
        obtain ⟨hitem, hother⟩ := List.of_mem_zip hpair
        exact hpairs hpair (hexact item hitem) (hexact' other hother)
  case object =>
    intro fields others hfields hfirst hsecond
    cases hfirst with
    | object hexact =>
      cases hsecond with
      | object hexact' =>
        refine .object fun key => rel_imp (hfields key) ?_
        exact fun value hvalue found hfound hrelated =>
          hrelated (hexact key value hvalue) (hexact' key found hfound)

theorem symm (hr : ∀ a b, r a b → r b a) (h : first.Related r second) : second.Related r first := by
  apply h.byParts (motive := fun first second => second.Related r first)
  case null => exact .null
  case bool => exact .bool
  case number => exact fun a b hrelated => .number (hr a b hrelated)
  case string => exact .string
  case array => exact fun _ _ hitems => .array (List.Forall₂.flip hitems)
  case object => exact fun _ _ hfields => .object fun key => rel_flip (hfields key)

theorem trans (hr : ∀ a b c, r a b → r b c → r a c) (h : first.Related r second)
    (h' : second.Related r third) : first.Related r third := by
  apply h.byParts (motive := fun first second =>
    ∀ third, second.Related r third → first.Related r third)
  case null => exact fun _ h' => h'
  case bool => exact fun _ _ h' => h'
  case number =>
    intro a b hrelated third h'
    cases h' with
    | number hrelated' => exact .number (hr a b _ hrelated hrelated')
  case string => exact fun _ _ h' => h'
  case array =>
    intro items others hitems third h'
    cases h' with
    | array hitems' => exact .array (forall₂_comp hitems hitems' fun _ _ _ h h' => h _ h')
  case object =>
    intro fields others hfields third h'
    cases h' with
    | object hfields' =>
      exact .object fun key => rel_comp (hfields key) (hfields' key) fun _ _ _ h h' => h _ h'
  case a => exact h'

end Related

theorem sameValue_comm (first second : Json) : first.sameValue second = second.sameValue first := by
  have hswap : ∀ first second : Json, first.sameValue second = true →
      second.sameValue first = true := by
    intro first second h
    rw [sameValue_iff_related] at h ⊢
    exact h.symm fun a b hsame => (Number.sameValue_comm b a).trans hsame
  exact Bool.eq_iff_iff.mpr ⟨hswap first second, hswap second first⟩

/-- Documents with exact numbers have the same value if they denote the same numbers in the same
places. -/
theorem sameValue_iff_of_exact (hfirst : first.Exact) (hsecond : second.Exact) :
    first.sameValue second = true ↔ first.Related (fun a b => a.value = b.value) second := by
  rw [sameValue_iff_related]
  constructor
  · exact fun h => h.imp hfirst hsecond fun a b ha hb =>
      (Number.sameValue_iff_of_isDouble ha hb).mp
  · exact fun h => h.imp hfirst hsecond fun a b ha hb =>
      (Number.sameValue_iff_of_isDouble ha hb).mpr

theorem sameValue_trans_of_exact (hfirst : first.Exact) (hsecond : second.Exact)
    (hthird : third.Exact) (h : first.sameValue second = true) (h' : second.sameValue third = true) :
    first.sameValue third = true := by
  rw [sameValue_iff_of_exact hfirst hsecond] at h
  rw [sameValue_iff_of_exact hsecond hthird] at h'
  rw [sameValue_iff_of_exact hfirst hthird]
  exact h.trans (fun _ _ _ => Eq.trans) h'

end Json

/-- **Equality by value and the numbers denoted.**  Equality by value is reflexive and symmetric, and
compares documents place by place.  Two numbers have the same value if they denote the same number, or
if one is an integer that no double denotes and the other one the double that it is rounded to, which is
a nearest one.  Where there are no such integers, documents have the same value exactly if they denote
the same numbers, and equality by value is transitive too. -/
theorem sameValue_numeric (first second third : Json) (a b : Number) :
    first.sameValue first = true ∧
      first.sameValue second = second.sameValue first ∧
      (first.sameValue second = true ↔
        first.Related (fun a b => a.value = b.value ∨ a.RoundsTo b ∨ b.RoundsTo a) second) ∧
      (a.RoundsTo b → ∀ x : Float, x.isFinite = true →
        |b.value - a.value| ≤ |Binary64.value x - a.value|) ∧
      (first.Exact → second.Exact →
        (first.sameValue second = true ↔ first.Related (fun a b => a.value = b.value) second)) ∧
      (first.Exact → second.Exact → third.Exact → first.sameValue second = true →
        second.sameValue third = true → first.sameValue third = true) := by
  refine ⟨first.sameValue_refl, first.sameValue_comm second, ?_, fun h x hx => h.nearest hx,
    Json.sameValue_iff_of_exact, Json.sameValue_trans_of_exact⟩
  simp only [Json.sameValue_iff_related, Number.sameValue_iff]

/-! ### The odd integer after `2 ^ 53` -/

/-- The integer `2 ^ 53`. -/
def evenInteger : Number := .int 0x20000000000000 (by decide) (by decide)

/-- The next integer, which no double denotes. -/
def oddInteger : Number := .int 0x20000000000001 (by decide) (by decide)

/-- The double `2 ^ 53`. -/
def evenDouble : Number := .float (Float.ofInt 0x20000000000000) evenInteger.isFinite_toFloat

theorem value_evenDouble : evenDouble.value = evenInteger.value :=
  (Number.isDouble_int (by decide) : evenInteger.IsDouble).value_toFloat

theorem roundsTo_oddInteger : oddInteger.RoundsTo evenDouble := by
  have hrounded : oddInteger.toFloat = evenInteger.toFloat := rfl
  refine ⟨⟨_, _, _, rfl⟩, fun hdouble => ?_, _, _, rfl, congrArg Binary64.value hrounded⟩
  have hvalue := hdouble.value_toFloat
  rw [hrounded] at hvalue
  have hsame : oddInteger.value = evenInteger.value := hvalue.symm.trans value_evenDouble
  simp [Number.value, oddInteger, evenInteger] at hsame

/-- The odd integer has the value of the double, and so has the even one, but the two integers
differ. -/
theorem sameValue_numeric_oddInteger :
    (Json.number oddInteger).sameValue (.number evenDouble) = true ∧
      (Json.number evenDouble).sameValue (.number evenInteger) = true ∧
      (Json.number oddInteger).sameValue (.number evenInteger) = false ∧
      oddInteger.value ≠ evenDouble.value := by
  have hodd := sameValue_numeric (.number oddInteger) (.number evenDouble) .null oddInteger evenDouble
  have heven :=
    sameValue_numeric (.number evenDouble) (.number evenInteger) .null evenDouble evenInteger
  have hexact : (Json.number evenDouble).Exact := .number (Number.isDouble_float ..)
  have hexact' : (Json.number evenInteger).Exact := .number (Number.isDouble_int (by decide))
  refine ⟨hodd.2.2.1.mpr (.number (.inr (.inl roundsTo_oddInteger))),
    (heven.2.2.2.2.1 hexact hexact').mpr (.number value_evenDouble), rfl, fun hvalue => ?_⟩
  exact roundsTo_oddInteger.inexact ⟨_, evenInteger.isFinite_toFloat, hvalue.symm⟩

end TransitionRules
