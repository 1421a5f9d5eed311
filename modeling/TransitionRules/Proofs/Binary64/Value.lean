/-
TransitionRules/Proofs/Binary64/Value.lean

Doubles as rational numbers.  A finite double has a sign, a mantissa and an exponent, and denotes the
mantissa times two to the exponent, with the sign (`value`).  Its mantissa has 53 bits, of which the
first one is set unless the exponent is the least one (`Fits`).  So no number is denoted by two pairs of
mantissa and exponent (`Fits.unique`), and finite doubles are equal exactly if they denote the same
number (`beq_iff_value_eq`); the two zeros do, and they are equal.
-/
import Mathlib
import TransitionRules.Binary64

namespace TransitionRules.Binary64

open Float.Model (UnpackedFloat Format)
open Float.Model.UnpackedFloat

/-- The number that an unpacked double denotes; one that is not finite denotes none and counts as zero. -/
def unpackedValue : UnpackedFloat → ℚ
  | .finite sign mantissa exponent _ => sign.apply mantissa * 2 ^ exponent
  | _ => 0

/-- The number that a finite double denotes. -/
def value (x : Float) : ℚ := unpackedValue x.toModel.unpack

/-- The mantissa and the exponent of a finite double. -/
structure Fits (mantissa : Nat) (exponent : Int) : Prop where
  bits : mantissa < 2 ^ 53
  least : -1074 ≤ exponent
  normal : 2 ^ 52 ≤ mantissa ∨ exponent = -1074

/-- The leading bit of the mantissa of a normal double is not stored. -/
theorem toNat_hidden_append (fraction : BitVec 52) :
    (1#1 ++ fraction).toNat = 2 ^ 52 + fraction.toNat := by
  rw [BitVec.toNat_append, ← Nat.shiftLeft_add_eq_or_of_lt fraction.isLt]
  rfl

theorem fits_of_unpack {bits : BitVec Format.binary64.numBits} {sign : Sign} {mantissa : Nat}
    {exponent : Int} {pos : 0 < mantissa}
    (h : UnpackedFloat.unpack Format.binary64 bits = .finite sign mantissa exponent pos) :
    Fits mantissa exponent := by
  have hfraction : (unpackMantissa bits).toNat < 2 ^ 52 := (unpackMantissa bits).isLt
  simp only [UnpackedFloat.unpack] at h
  split at h
  · split at h <;> cases h
  · split at h
    · next hfield =>
      split at h
      · cases h
      · cases h
        refine ⟨by omega, ?_, .inr ?_⟩
        all_goals simp [hfield, Format.exponentBias]
    · next hfield =>
      cases h
      have hpos : (unpackExponent bits).toNat ≠ 0 := fun hzero =>
        hfield (BitVec.eq_of_toNat_eq hzero)
      rw [toNat_hidden_append]
      refine ⟨by omega, ?_, .inl (Nat.le_add_right _ _)⟩
      simp [Format.exponentBias]
      omega

/-! ### One pair for each number -/

/-- A number can be written with any smaller exponent. -/
theorem mul_zpow_of_le (m : ℚ) {e e' : Int} (h : e' ≤ e) :
    m * 2 ^ e = m * 2 ^ (e - e').toNat * 2 ^ e' := by
  rw [mul_assoc, ← zpow_natCast, ← zpow_add₀ two_ne_zero, Int.toNat_of_nonneg (by omega),
    Int.sub_add_cancel]

variable {m m' : Nat} {e e' : Int}

theorem Fits.exponent_le (h : Fits m e) (h' : Fits m' e')
    (hvalue : (m : ℚ) * 2 ^ e = m' * 2 ^ e') : e ≤ e' := by
  -- with the larger exponent the first mantissa is a normal one, so the other one has a bit too many
  by_contra hlt
  have hpos : (0 : ℚ) < 2 ^ e' := zpow_pos two_pos e'
  rw [mul_zpow_of_le m (by omega : e' ≤ e), mul_left_inj' hpos.ne'] at hvalue
  have hmantissa : m * 2 ^ (e - e').toNat = m' := by exact_mod_cast hvalue
  have hnormal : 2 ^ 52 ≤ m := h.normal.resolve_right (by have := h'.least; omega)
  have hshift : 2 ^ 1 ≤ 2 ^ (e - e').toNat := Nat.pow_le_pow_right two_pos (by omega)
  have hlarge : 2 ^ 52 * 2 ^ 1 ≤ m' := hmantissa ▸ Nat.mul_le_mul hnormal hshift
  have hbits := h'.bits
  omega

/-- A number has one mantissa and one exponent. -/
theorem Fits.unique (h : Fits m e) (h' : Fits m' e') (hvalue : (m : ℚ) * 2 ^ e = m' * 2 ^ e') :
    e = e' ∧ m = m' := by
  obtain rfl : e = e' := le_antisymm (h.exponent_le h' hvalue) (h'.exponent_le h hvalue.symm)
  have hpos : (0 : ℚ) < 2 ^ e := zpow_pos two_pos e
  rw [mul_left_inj' hpos.ne'] at hvalue
  exact ⟨rfl, by exact_mod_cast hvalue⟩

/-! ### Equality -/

/-- An unpacked double that is zero, or has the mantissa and the exponent of a finite double. -/
def Canonical : UnpackedFloat → Prop
  | .zero _ => True
  | .finite _ mantissa exponent _ => Fits mantissa exponent
  | _ => False

theorem canonical_unpack {x : Float} (hx : x.isFinite = true) : Canonical x.toModel.unpack := by
  have hfinite : x.toModel.unpack.isFinite = true := hx
  cases hunpack : x.toModel.unpack with
  | notANumber | infinity _ => rw [hunpack] at hfinite; cases hfinite
  | zero sign => trivial
  | finite sign mantissa exponent pos => exact fits_of_unpack hunpack

theorem unpackedValue_positive (m : Nat) (e : Int) (pos : 0 < m) :
    unpackedValue (.finite .positive m e pos) = m * 2 ^ e := rfl

theorem unpackedValue_negative (m : Nat) (e : Int) (pos : 0 < m) :
    unpackedValue (.finite .negative m e pos) = -(m * 2 ^ e) := by
  rw [unpackedValue, Sign.apply, Int.cast_neg, Int.cast_natCast, neg_mul]

theorem mantissa_mul_pos (pos : 0 < m) (e : Int) : (0 : ℚ) < m * 2 ^ e :=
  mul_pos (Nat.cast_pos.mpr pos) (zpow_pos two_pos e)

theorem unpackedValue_finite_ne_zero (s : Sign) (e : Int) (pos : 0 < m) :
    unpackedValue (.finite s m e pos) ≠ 0 := by
  have hpos := mantissa_mul_pos pos e
  cases s with
  | positive => exact hpos.ne'
  | negative =>
    rw [unpackedValue_negative]
    exact (neg_neg_of_pos hpos).ne

/-- Finite numbers that are the same have the same sign. -/
theorem sign_eq_of_unpackedValue_eq {s t : Sign} {pos : 0 < m} {pos' : 0 < m'}
    (hvalue : unpackedValue (.finite s m e pos) = unpackedValue (.finite t m' e' pos')) :
    s = t ∧ (m : ℚ) * 2 ^ e = m' * 2 ^ e' := by
  have hpos := mantissa_mul_pos pos e
  have hpos' := mantissa_mul_pos pos' e'
  cases s <;> cases t <;> simp only [unpackedValue_positive, unpackedValue_negative] at hvalue
  case positive.positive => exact ⟨rfl, hvalue⟩
  case negative.negative => exact ⟨rfl, neg_injective hvalue⟩
  case positive.negative => linarith
  case negative.positive => linarith

theorem beq_iff_unpackedValue_eq {first second : UnpackedFloat} (hfirst : Canonical first)
    (hsecond : Canonical second) :
    first.beq second = true ↔ unpackedValue first = unpackedValue second := by
  rw [beq_iff_ne_notANumber_and_eq]
  constructor
  · rintro ⟨-, -, rfl | ⟨rfl, rfl⟩ | ⟨rfl, rfl⟩⟩
    · rfl
    · rfl
    · rfl
  · intro hvalue
    have hnumber : first ≠ .notANumber := by
      rintro rfl
      exact hfirst
    have hnumber' : second ≠ .notANumber := by
      rintro rfl
      exact hsecond
    refine ⟨hnumber, hnumber', ?_⟩
    cases first with
    | notANumber | infinity _ => cases hfirst
    | zero s =>
      cases second with
      | notANumber | infinity _ => cases hsecond
      | zero t =>
        -- the zeros are equal whatever their signs
        cases s <;> cases t <;> simp
      | finite t m' e' pos' => exact absurd hvalue.symm (unpackedValue_finite_ne_zero t e' pos')
    | finite s m e pos =>
      cases second with
      | notANumber | infinity _ => cases hsecond
      | zero t => exact absurd hvalue (unpackedValue_finite_ne_zero s e pos)
      | finite t m' e' pos' =>
        obtain ⟨rfl, hmagnitude⟩ := sign_eq_of_unpackedValue_eq hvalue
        obtain ⟨rfl, rfl⟩ := hfirst.unique hsecond hmagnitude
        exact .inl rfl

/-- Finite doubles are equal exactly if they denote the same number. -/
theorem beq_iff_value_eq {x y : Float} (hx : x.isFinite = true) (hy : y.isFinite = true) :
    (x == y) = true ↔ value x = value y :=
  beq_iff_unpackedValue_eq (canonical_unpack hx) (canonical_unpack hy)

end TransitionRules.Binary64
