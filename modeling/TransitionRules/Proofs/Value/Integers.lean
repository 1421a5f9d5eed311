/-
TransitionRules/Proofs/Value/Integers.lean

The integers that values hold, and arithmetic near the limits of their words.  A value holds an
integer as a signed word, as an unsigned word above the signed ones or, where no word holds it, as
some double (`Value.Holds`).  Operators on signed words alone wrap around; an unsigned operand makes
the result exact wherever a word holds it (`Value.IsComputed`).

An exact result is computed in 128 bits.  Sums, differences, quotients and remainders of words always
fit (`BinaryOp.inWideRange`).  A product of two unsigned words may not, which is why
`Value.arithmetic` asks.

Main result: `integer_operators`.
-/
import TransitionRules.Proofs.Value.RoundTrip
import TransitionRules.Value.Operation

namespace TransitionRules

/-- Some word holds the integer, a signed or an unsigned one. -/
def InWordRange (n : Int) : Prop := -0x8000000000000000 ≤ n ∧ n < 0x10000000000000000

/-- 128 signed bits hold the integer. -/
def InWideRange (n : Int) : Prop :=
  -0x80000000000000000000000000000000 ≤ n ∧ n < 0x80000000000000000000000000000000

theorem InWordRange.inWideRange {n : Int} (h : InWordRange n) : InWideRange n := by
  unfold InWordRange at h
  unfold InWideRange
  omega

namespace Value

/-! ### Integers -/

/-- The integer that a number without a fraction is. -/
def integer? : Value → Option Int
  | .int n => some n.toInt
  | .uint n => some n.toNat
  | _ => none

/-- The value holds the integer as exactly as a value can: as a signed word where one holds it, as an
unsigned word above that, and as some double where no word does. -/
inductive Holds : Value → Int → Prop
  | signed (w : Int64) : Holds (.int w) w.toInt
  | unsigned (w : UInt64) : 0x8000000000000000 ≤ w.toNat → Holds (.uint w) w.toNat
  | double (x : Float) {n : Int} : ¬ InWordRange n → Holds (.float x) n

variable {left right : Value} {m n : Int}

/-- A value that becomes an integer of a document is that integer. -/
theorem integer?_of_toJson {value : Value} {low : -0x8000000000000000 ≤ n}
    {high : n < 0x10000000000000000} (h : value.toJson = .number (.int n low high)) :
    value.integer? = some n := by
  cases value with
  | int a | uint a =>
    cases h
    rfl
  | float x =>
    -- a double becomes a double or null
    have hfloat : floatToJson x = .number (.int n low high) := h
    rw [floatToJson, Number.ofFloat?] at hfloat
    split at hfloat
    · next number hnumber =>
      split at hnumber
      · cases hnumber
        cases hfloat
      · cases hnumber
    · cases hfloat
  | _ => cases h

theorem integer?_ofInteger (low : -0x8000000000000000 ≤ n) (high : n < 0x10000000000000000) :
    (ofInteger n).integer? = some n :=
  integer?_of_toJson (toJson_ofInteger low high)

theorem inWordRange_of_integer? (h : left.integer? = some m) : InWordRange m := by
  unfold InWordRange
  cases left with
  | int w =>
    cases h
    have hlow := Int64.le_toInt w
    have hhigh := Int64.toInt_lt w
    omega
  | uint w =>
    cases h
    have hhigh := UInt64.toNat_lt w
    omega
  | _ => cases h

theorem holds_ofInteger (n : Int) : (ofInteger n).Holds n := by
  unfold ofInteger
  split
  · next hsigned =>
    have hword : (Int64.ofInt n).toInt = n := Int64.toInt_ofInt_of_le hsigned.1 hsigned.2
    have h := Holds.signed (Int64.ofInt n)
    rwa [hword] at h
  · next hsigned =>
    split
    · next hunsigned =>
      have hsize : n.toNat < UInt64.size := by
        show n.toNat < 0x10000000000000000
        omega
      have hword : (UInt64.ofNat n.toNat).toNat = n.toNat := UInt64.toNat_ofNat_of_lt' hsize
      have h := Holds.unsigned (UInt64.ofNat n.toNat) (by omega)
      rwa [hword, Int.toNat_of_nonneg hunsigned.1] at h
    · exact .double _ fun hrange => by
        unfold InWordRange at hrange
        omega

theorem Holds.kind_eq_int {value : Value} (h : value.Holds n) (hrange : InWordRange n) :
    value.kind = .int := by
  cases h with
  | signed w => rfl
  | unsigned w _ => rfl
  | double x hout => exact absurd hrange hout

/-! ### Computed integers -/

/-- The value is what an operator makes of words, if `n` is the exact result: signed words wrap
around, and with an unsigned word among them the value holds `n`. -/
structure IsComputed (operands : List Value) (n : Int) (result : Value) : Prop where
  wraps : (∀ operand ∈ operands, ∃ w, operand = .int w) →
    ∃ w : Int64, result = .int w ∧ w.toInt = n.bmod 0x10000000000000000
  holds : (∃ w, .uint w ∈ operands) → result.Holds n

variable {operands : List Value}

theorem IsComputed.of_wraps {w : Int64} (hw : w.toInt = n.bmod 0x10000000000000000)
    (hsigned : ∀ c, .uint c ∉ operands) : IsComputed operands n (.int w) where
  wraps _ := ⟨w, rfl, hw⟩
  holds := fun ⟨c, hc⟩ => absurd hc (hsigned c)

theorem IsComputed.of_holds {result : Value} (h : result.Holds n)
    (hunsigned : ∃ c, .uint c ∈ operands) : IsComputed operands n result where
  wraps hsigned := by
    obtain ⟨c, hc⟩ := hunsigned
    obtain ⟨w, hw⟩ := hsigned _ hc
    cases hw
  holds _ := h

/-- Two words are both signed, or they are computed with as integers. -/
theorem words_or_wide (hleft : left.integer? = some m) (hright : right.integer? = some n) :
    (∃ a b, left = .int a ∧ right = .int b) ∨
      (∃ c, .uint c ∈ [left, right]) ∧ Numbers.of? left right = some (.wide m n) := by
  cases left with
  | int a =>
    cases right with
    | int b => exact .inl ⟨a, b, rfl, rfl⟩
    | uint c =>
      cases hleft
      cases hright
      exact .inr ⟨⟨c, by simp⟩, rfl⟩
    | _ => cases hright
  | uint c =>
    cases right with
    | int _ | uint _ =>
      cases hleft
      cases hright
      exact .inr ⟨⟨c, by simp⟩, rfl⟩
    | _ => cases hright
  | _ => cases hleft

/-- With an unsigned word among the operands an operation is exact.  Beyond 128 bits it is given up,
where no word holds the result anyway. -/
theorem arithmetic_wide {op : BinaryOp} {operation : Operation}
    (hwide : Numbers.of? left right = some (.wide m n)) :
    ∃ result, arithmetic op operation left right = .ok result ∧
      result.Holds (operation.exact m n) := by
  unfold arithmetic
  rw [hwide]
  dsimp only
  split
  · exact ⟨_, rfl, holds_ofInteger _⟩
  · next hwiderange => exact ⟨_, rfl, .double _ fun hrange => hwiderange hrange.inWideRange⟩

/-- Integers are no strings. -/
theorem add_of_wide (hwide : Numbers.of? left right = some (.wide m n)) :
    left.add right = arithmetic .add ⟨(· + ·), (· + ·), (· + ·)⟩ left right := by
  unfold add
  split
  · cases hwide
  · rfl

/-- A quotient is no larger than the dividend. -/
theorem range_tdiv (m n : Int) : -(m.natAbs : Int) ≤ m.tdiv n ∧ m.tdiv n ≤ m.natAbs := by
  have h := Int.natAbs_tdiv_le_natAbs m n
  omega

/-- A remainder is no larger than the dividend and lies on the same side of zero. -/
theorem inWordRange_tmod (hm : InWordRange m) (n : Int) : InWordRange (m.tmod n) := by
  unfold InWordRange at hm ⊢
  have habs : (m.tmod n).natAbs ≤ m.natAbs := by
    rw [Int.natAbs_tmod]
    exact Nat.mod_le _ _
  by_cases hsign : 0 ≤ m
  · have hnonneg := Int.tmod_nonneg n hsign
    omega
  · omega

end Value

/-! ### Operators -/

namespace BinaryOp

/-- The operation on integers that an arithmetic operator stands for.  A quotient is truncated toward
zero, and a remainder has the sign of the dividend. -/
def onIntegers? : BinaryOp → Option (Int → Int → Int)
  | .add => some (· + ·)
  | .sub => some (· - ·)
  | .mul => some (· * ·)
  | .div => some Int.tdiv
  | .mod => some Int.tmod
  | _ => none

/-- What an operator says of a zero on the right, if it refuses one. -/
def zeroFault? : BinaryOp → Option EvaluationFault
  | .div => some .divisionByZero
  | .mod => some .moduloByZero
  | _ => none

variable {op : BinaryOp} {exact : Int → Int → Int} {left right : Value} {m n : Int}

theorem apply_zero {fault : EvaluationFault} (hop : op.zeroFault? = some fault)
    (hleft : left.integer? = some m) (hright : right.integer? = some 0) :
    op.apply left right = .error (.evaluation fault) := by
  rcases Value.words_or_wide hleft hright with ⟨a, b, rfl, rfl⟩ | ⟨-, hwide⟩
  · obtain rfl : b = 0 := Int64.toInt_inj.mp (Option.some.inj hright)
    cases op <;> cases hop <;> rfl
  · cases op <;> cases hop <;> simp only [apply, Value.div, Value.mod, hwide, if_true]

/-- Signed words wrap around. -/
theorem apply_words (hop : op.onIntegers? = some exact) {a b : Int64}
    (hzero : op.zeroFault? = none ∨ b.toInt ≠ 0) :
    ∃ w : Int64, op.apply (.int a) (.int b) = .ok (.int w) ∧
      w.toInt = (exact a.toInt b.toInt).bmod 0x10000000000000000 := by
  have hne : op.zeroFault? ≠ none → b ≠ 0 := by
    rintro hfault rfl
    exact hzero.resolve_left hfault rfl
  cases op with
  | add =>
    cases hop
    exact ⟨a + b, rfl, Int64.toInt_add a b⟩
  | sub =>
    cases hop
    exact ⟨a - b, rfl, Int64.toInt_sub a b⟩
  | mul =>
    cases hop
    exact ⟨a * b, rfl, Int64.toInt_mul a b⟩
  | div =>
    cases hop
    refine ⟨a / b, ?_, Int64.toInt_div a b⟩
    simp only [apply, Value.div, Numbers.of?, if_neg (hne nofun)]
  | mod =>
    cases hop
    refine ⟨a % b, ?_, ?_⟩
    · simp only [apply, Value.mod, Numbers.of?, if_neg (hne nofun)]
    · -- a remainder is a word already
      rw [← Int64.toInt_mod]
      exact (Int64.toInt_bmod (a % b)).symm
  | _ => cases hop

/-- With an unsigned word the result is exact where a word holds it. -/
theorem apply_wide (hop : op.onIntegers? = some exact)
    (hwide : Numbers.of? left right = some (.wide m n)) (hzero : op.zeroFault? = none ∨ n ≠ 0) :
    ∃ result, op.apply left right = .ok result ∧ result.Holds (exact m n) := by
  have hne : op.zeroFault? ≠ none → n ≠ 0 := hzero.resolve_left
  cases op with
  | add =>
    cases hop
    rw [apply, Value.add_of_wide hwide]
    exact Value.arithmetic_wide hwide
  | sub | mul =>
    cases hop
    exact Value.arithmetic_wide hwide
  | div =>
    cases hop
    refine ⟨_, ?_, Value.holds_ofInteger _⟩
    simp only [apply, Value.div, hwide, if_neg (hne nofun)]
  | mod =>
    cases hop
    refine ⟨_, ?_, Value.holds_ofInteger _⟩
    simp only [apply, Value.mod, hwide, if_neg (hne nofun)]
  | _ => cases hop

/-- An operator that does not refuse its operands computes with them. -/
theorem apply_isComputed (hop : op.onIntegers? = some exact) (hleft : left.integer? = some m)
    (hright : right.integer? = some n) (hzero : op.zeroFault? = none ∨ n ≠ 0) :
    ∃ result, op.apply left right = .ok result ∧
      Value.IsComputed [left, right] (exact m n) result := by
  rcases Value.words_or_wide hleft hright with ⟨a, b, rfl, rfl⟩ | ⟨hunsigned, hwide⟩
  · cases hleft
    cases hright
    obtain ⟨w, happly, hw⟩ := apply_words hop hzero
    exact ⟨_, happly, .of_wraps hw (by simp)⟩
  · obtain ⟨result, happly, hholds⟩ := apply_wide hop hwide hzero
    exact ⟨result, happly, .of_holds hholds hunsigned⟩

/-- A product may need more than 128 bits, but nothing else does. -/
theorem inWideRange (hop : op.onIntegers? = some exact) (hmul : op ≠ .mul)
    (hm : InWordRange m) (hn : InWordRange n) : InWideRange (exact m n) := by
  cases op with
  | mod =>
    cases hop
    exact (Value.inWordRange_tmod hm n).inWideRange
  | div =>
    cases hop
    have h := Value.range_tdiv m n
    unfold InWordRange at hm
    unfold InWideRange
    omega
  | mul => exact absurd rfl hmul
  | add | sub =>
    cases hop
    unfold InWordRange at hm hn
    unfold InWideRange
    dsimp only
    omega
  | _ => cases hop

end BinaryOp

/-- Negation keeps to the rule of the operators with two operands. -/
theorem UnaryOp.neg_isComputed {operand : Value} {m : Int} (h : operand.integer? = some m) :
    ∃ result, UnaryOp.neg.apply operand = .ok result ∧
      Value.IsComputed [operand] (-m) result := by
  cases operand with
  | int a =>
    cases h
    exact ⟨_, rfl, .of_wraps (Int64.toInt_neg a) (by simp)⟩
  | uint c =>
    cases h
    exact ⟨_, rfl, .of_holds (Value.holds_ofInteger _) ⟨c, by simp⟩⟩
  | _ => cases h

/-- **Operators on integers.**  Division and remainder fail exactly by zero.  Otherwise signed words
wrap around, and an unsigned word among the operands makes the result exact, as far as words go; a
remainder never goes further.  Negation keeps to the same rule.  Whatever is computed exactly fits 128
bits, products apart. -/
theorem integer_operators {op : BinaryOp} {exact : Int → Int → Int} {left right : Value} {m n : Int}
    (hop : op.onIntegers? = some exact) (hleft : left.integer? = some m)
    (hright : right.integer? = some n) :
    (∀ fault, op.zeroFault? = some fault →
      (op.apply left right = .error (.evaluation fault) ↔ n = 0)) ∧
    (op.zeroFault? = none ∨ n ≠ 0 →
      ∃ result, op.apply left right = .ok result ∧
        Value.IsComputed [left, right] (exact m n) result ∧ (op = .mod → result.kind = .int)) ∧
    (∃ result, UnaryOp.neg.apply left = .ok result ∧ Value.IsComputed [left] (-m) result) ∧
    (op ≠ .mul → InWideRange (exact m n)) ∧ InWideRange (-m) := by
  have hm := Value.inWordRange_of_integer? hleft
  have hn := Value.inWordRange_of_integer? hright
  refine ⟨fun fault hfault => ⟨fun herror => ?_, ?_⟩, fun hzero => ?_,
    UnaryOp.neg_isComputed hleft, fun hmul => BinaryOp.inWideRange hop hmul hm hn, ?_⟩
  · refine Decidable.byContradiction fun hzero => ?_
    obtain ⟨result, hresult, -⟩ := BinaryOp.apply_isComputed hop hleft hright (.inr hzero)
    rw [herror] at hresult
    cases hresult
  · rintro rfl
    exact BinaryOp.apply_zero hfault hleft hright
  · obtain ⟨result, hresult, hcomputed⟩ := BinaryOp.apply_isComputed hop hleft hright hzero
    refine ⟨result, hresult, hcomputed, ?_⟩
    rintro rfl
    cases hop
    rcases Value.words_or_wide hleft hright with ⟨a, b, rfl, rfl⟩ | ⟨hunsigned, -⟩
    · obtain ⟨w, rfl, -⟩ := hcomputed.wraps (by simp)
      rfl
    · exact (hcomputed.holds hunsigned).kind_eq_int (Value.inWordRange_tmod hm n)
  · unfold InWordRange at hm
    unfold InWideRange
    omega

/-- The quotient of an unsigned word may be the least signed one. -/
theorem integer_operators_least :
    BinaryOp.div.onIntegers? = some Int.tdiv ∧
      (Value.uint 0x8000000000000000).integer? = some 0x8000000000000000 ∧
      (Value.int (-1)).integer? = some (-1) ∧
      ∃ result, BinaryOp.div.apply (.uint 0x8000000000000000) (.int (-1)) = .ok result ∧
        result.Holds (-0x8000000000000000) := by
  refine ⟨rfl, rfl, rfl, ?_⟩
  obtain ⟨-, hcomputes, -⟩ := @integer_operators .div Int.tdiv (.uint 0x8000000000000000)
    (.int (-1)) _ _ rfl rfl rfl
  obtain ⟨result, hresult, hcomputed, -⟩ := hcomputes (.inr (by decide))
  exact ⟨result, hresult, hcomputed.holds ⟨_, .head _⟩⟩

end TransitionRules
