/-
TransitionRules/Proofs/Binary64/Nearest.lean

Integers as doubles.  The double of an integer is the nearest one: no number of 53 bits, and so no
finite double, is closer to the integer (`isNearest_ofInt`).  In particular an integer that a double
denotes is denoted by its own double.

The proof follows the computation.  A mantissa with too many bits is shifted, and two bits keep what is
shifted out of it (`Shifted`); rounding errs by half a unit at most (`Shifted.rounded`), and what is that
close to a multiple of the unit is closer to no other number of 53 bits (`isNearest_of_half`).  The
result fits a double (`roundWithAccuracy_nearest`) and survives being packed into one (`unpack_pack`).
Integers of 53 bits are rounded twice, and both times exactly.
-/
import TransitionRules.Proofs.Binary64.Value

namespace TransitionRules.Binary64

open Float.Model (UnpackedFloat Format)
open Float.Model.UnpackedFloat

variable {m : Nat} {e : Int}

/-! ### Packing -/

/-- The mantissa and the exponent of a normal double. -/
structure Normal (mantissa : Nat) (exponent : Int) : Prop where
  low : 2 ^ 52 ≤ mantissa
  high : mantissa < 2 ^ 53
  least : -1074 ≤ exponent
  greatest : exponent ≤ 971

theorem Normal.log2_eq (h : Normal m e) (pos : 0 < m) : m.log2 = 52 :=
  (Nat.log2_eq_iff pos.ne').mpr ⟨h.low, h.high⟩

theorem pack_normal (h : Normal m e) (sign : Sign) (pos : 0 < m) :
    UnpackedFloat.pack Format.binary64 (.finite sign m e pos) =
      packComponents Format.binary64 sign (BitVec.ofNat 11 (e + 1023 + 52).toNat)
        (BitVec.ofNat 52 m) := by
  have hfield : ¬ 2 ^ 11 ≤ (e + 1023 + 52).toNat + 1 := by
    have := h.greatest
    omega
  have hlog : m.log2 + 1 = 53 := by rw [h.log2_eq pos]
  exact (if_neg hfield).trans (if_pos hlog)

/-- A normal double is read as it was packed. -/
theorem unpack_pack (h : Normal m e) (sign : Sign) (pos : 0 < m) :
    (Float.ofModel (Float.Model.pack (.finite sign m e pos))).toModel.unpack =
      .finite sign m e pos := by
  show UnpackedFloat.unpack Format.binary64 (UnpackedFloat.pack Format.binary64 _) = _
  rw [pack_normal h]
  obtain ⟨low, high, least, greatest⟩ := h
  have hmantissa : (1#1 ++ BitVec.ofNat 52 m).toNat = m := by
    rw [toNat_hidden_append, BitVec.toNat_ofNat]
    omega
  have hfield : (BitVec.ofNat 11 (e + 1023 + 52).toNat).toNat = (e + 1023 + 52).toNat := by
    rw [BitVec.toNat_ofNat, Nat.mod_eq_of_lt (by omega)]
  -- the field of the exponent is neither that of the infinities nor that of zero
  have hinfinite : BitVec.ofNat 11 (e + 1023 + 52).toNat ≠ -1#11 := by
    intro h
    have htoNat : (e + 1023 + 52).toNat = 2047 := hfield.symm.trans (congrArg BitVec.toNat h)
    omega
  have hzero : BitVec.ofNat 11 (e + 1023 + 52).toNat ≠ 0#11 := by
    intro h
    have htoNat : (e + 1023 + 52).toNat = 0 := hfield.symm.trans (congrArg BitVec.toNat h)
    omega
  simp only [UnpackedFloat.unpack, unpackMantissa_packComponents, unpackExponent_packComponents,
    unpackSign_packComponents, Sign.ofBitVec_toBitVec, if_neg hinfinite, if_neg hzero, hmantissa,
    hfield]
  have hexponent : ((e + 1023 + 52).toNat : Int) - (1023 + 52 : Nat) = e := by omega
  exact (UnpackedFloat.finite.injEq ..).mpr ⟨rfl, rfl, hexponent⟩

/-! ### Shifting and rounding a mantissa -/

/-- The mantissa holds the total, shifted by so many places; the rest is what was shifted out, and the
two bits tell how it compares with half a unit. -/
structure Shifted (em : ExtendedMantissa) (places total rest : Nat) : Prop where
  total_eq : total = em.mantissa * 2 ^ places + rest
  bits : match em.roundBit, em.stickyBit with
    | false, false => rest = 0
    | false, true => 0 < rest ∧ 2 * rest < 2 ^ places
    | true, false => 2 * rest = 2 ^ places
    | true, true => 2 ^ places < 2 * rest ∧ rest < 2 ^ places

namespace Shifted

variable {em : ExtendedMantissa} {places total rest : Nat}

/-- One more place: the last bit of the mantissa goes to the rest. -/
theorem shiftRightOne (h : Shifted em places total rest) :
    Shifted em.shiftRightOne (places + 1) total (em.mantissa % 2 * 2 ^ places + rest) where
  total_eq :=
    calc total = (2 * (em.mantissa / 2) + em.mantissa % 2) * 2 ^ places + rest := by
          rw [Nat.div_add_mod, h.total_eq]
      _ = em.mantissa / 2 * 2 ^ (places + 1) + (em.mantissa % 2 * 2 ^ places + rest) := by ring
  bits := by
    have hbits := h.bits
    have hpow : 2 ^ (places + 1) = 2 * 2 ^ places := by ring
    have hpos : 0 < 2 ^ places := Nat.two_pow_pos places
    rcases em with ⟨m, r, s⟩
    rcases Nat.mod_two_eq_zero_or_one m with hm | hm <;> cases r <;> cases s <;>
      simp [ExtendedMantissa.shiftRightOne, hm, hpow] at hbits ⊢ <;> omega

theorem exists_rest (total places : Nat) :
    ∃ rest, Shifted (ExtendedMantissa.mk total false false >>> places) places total rest := by
  induction places with
  | zero => exact ⟨0, by simp [HShiftRight.hShiftRight, Nat.repeat], rfl⟩
  | succ places ih =>
    obtain ⟨rest, h⟩ := ih
    exact ⟨_, h.shiftRightOne⟩

/-- The rounded mantissa is off by half a unit at most. -/
theorem rounded (h : Shifted em places total rest) :
    2 * (em.roundedMantissa * 2 ^ places) ≤ 2 * total + 2 ^ places ∧
      2 * total ≤ 2 * (em.roundedMantissa * 2 ^ places) + 2 ^ places := by
  obtain ⟨rfl, hbits⟩ := h
  rcases em with ⟨m, r, s⟩
  have hpos : 0 < 2 ^ places := Nat.two_pow_pos places
  have hsucc : (m + 1) * 2 ^ places = m * 2 ^ places + 2 ^ places := by ring
  -- a tie goes to the even mantissa
  have heven : (m + m % 2) * 2 ^ places = m * 2 ^ places ∨
      (m + m % 2) * 2 ^ places = m * 2 ^ places + 2 ^ places := by
    rcases Nat.mod_two_eq_zero_or_one m with hm | hm
    · exact .inl (by rw [hm, Nat.add_zero])
    · exact .inr (by rw [hm, hsucc])
  cases r <;> cases s <;>
    simp [ExtendedMantissa.roundedMantissa, ExtendedMantissa.accuracy,
      Accuracy.roundToNearestEven] at hbits ⊢ <;> omega

end Shifted

/-- A mantissa with more than 53 bits is shifted until it has 53. -/
theorem shiftToTargetExponent_of_log2 {places : Nat} (hlog : m.log2 = 52 + places)
    (hleast : -1074 ≤ e + places) :
    shiftToTargetExponent Format.binary64 m e .exact =
      (ExtendedMantissa.mk m false false >>> places, e + places) := by
  have htarget : Format.binary64.targetExponent (Float.Model.totalExponent m e) = e + places := by
    show max ((m.log2 : Int) + 1 + e - 53) (-1074) = _
    omega
  have hplaces : (e + places - e).toNat = places := by omega
  rw [shiftToTargetExponent, htarget, shiftToExponent, hplaces]
  rfl

/-- Rounding gives a mantissa of 53 bits that stands for so many units of the last place. -/
theorem roundWithAccuracy_of_log2 (sign : Sign) {places : Nat} (hlog : m.log2 = 52 + places)
    (hleast : -1074 ≤ e + places) :
    ∃ (m' : Nat) (e' : Int) (pos : 0 < m') (units : Nat),
      roundWithAccuracy Format.binary64 sign m e .exact = .finite sign m' e' pos ∧
      2 ^ 52 ≤ m' ∧ m' < 2 ^ 53 ∧ e + places ≤ e' ∧ e' ≤ e + places + 1 ∧
      (m' : ℚ) * 2 ^ e' = units * 2 ^ (e + places) ∧
      2 * (units * 2 ^ places) ≤ 2 * m + 2 ^ places ∧
      2 * m ≤ 2 * (units * 2 ^ places) + 2 ^ places := by
  obtain ⟨rest, hshifted⟩ := Shifted.exists_rest m places
  obtain ⟨hupper, hlower⟩ := hshifted.rounded
  generalize hunits :
    (ExtendedMantissa.mk m false false >>> places).roundedMantissa = units at hupper hlower
  have hround : roundWithAccuracy Format.binary64 sign m e .exact =
      let (final, e') := shiftToTargetExponent Format.binary64 units (e + places) .exact
      if h : final.mantissa = 0 then .zero sign
      else .finite sign final.mantissa e' (Nat.pos_of_ne_zero h) := by
    rw [roundWithAccuracy, shiftToTargetExponent_of_log2 hlog hleast]
    simp only [hunits]
  have hne : m ≠ 0 := by
    rintro rfl
    rw [Nat.log2_zero] at hlog
    omega
  obtain ⟨hlow, hhigh⟩ := (Nat.log2_eq_iff hne).mp hlog
  rw [pow_add] at hlow
  rw [pow_succ, pow_add] at hhigh
  have hlowUnits : 2 ^ 52 ≤ units := by
    by_contra hlt
    have hmul : (units + 1) * 2 ^ places ≤ 2 ^ 52 * 2 ^ places := Nat.mul_le_mul_right _ (by omega)
    have hpos : 0 < 2 ^ places := Nat.two_pow_pos places
    rw [Nat.add_mul] at hmul
    omega
  have hhighUnits : units ≤ 2 ^ 53 := by
    by_contra hlt
    have hmul : (2 ^ 53 + 1) * 2 ^ places ≤ units * 2 ^ places :=
      Nat.mul_le_mul_right _ (by omega)
    rw [Nat.add_mul] at hmul
    omega
  rw [hround]
  rcases hhighUnits.lt_or_eq with hlt | rfl
  · have hunitsLog : units.log2 = 52 + 0 := (Nat.log2_eq_iff (by omega)).mpr ⟨hlowUnits, hlt⟩
    rw [shiftToTargetExponent_of_log2 hunitsLog (by omega)]
    refine ⟨units, e + places, by omega, units, ?_, hlowUnits, hlt, le_rfl, by omega, rfl, hupper,
      hlower⟩
    show (if h : units = 0 then _ else _) = _
    rw [dif_neg (by omega)]
    simp only [Nat.cast_zero, add_zero]
    rfl
  · -- rounding up has made the mantissa one bit too long
    rw [shiftToTargetExponent_of_log2 (Nat.log2_two_pow : (2 ^ 53).log2 = 52 + 1) (by omega)]
    refine ⟨2 ^ 52, e + places + 1, by omega, 2 ^ 53, rfl, le_rfl, by omega, by omega, le_rfl, ?_,
      hupper, hlower⟩
    rw [zpow_add_one₀ two_ne_zero]
    push_cast
    ring

/-! ### The nearest number of 53 bits -/

/-- No number of 53 bits is closer to `q` than `v`. -/
def IsNearest (v q : ℚ) : Prop :=
  ∀ m e : Int, |m| < 2 ^ 53 → |v - q| ≤ |(m : ℚ) * 2 ^ e - q|

/-- What is nearest to a number of 53 bits is that number. -/
theorem IsNearest.eq {v q : ℚ} (h : IsNearest v q) {m e : Int} (hm : |m| < 2 ^ 53)
    (hq : (m : ℚ) * 2 ^ e = q) : v = q := by
  have hle := h m e hm
  rw [hq, sub_self, abs_zero] at hle
  exact sub_eq_zero.mp (abs_nonpos_iff.mp hle)

theorem isNearest_self (q : ℚ) : IsNearest q q := by
  intro m e _
  rw [sub_self, abs_zero]
  exact abs_nonneg _

theorem IsNearest.neg {v q : ℚ} (h : IsNearest v q) : IsNearest (-v) (-q) := by
  intro m e hm
  have hle := h (-m) e (by rwa [abs_neg])
  rw [Int.cast_neg, neg_mul] at hle
  rwa [← neg_sub', abs_neg, ← abs_neg ((m : ℚ) * 2 ^ e - -q), neg_sub', neg_neg]

/-- A multiple of a unit within half a unit is a nearest multiple. -/
theorem abs_sub_le_of_half {r j : Int} {unit q : ℚ} (hunit : 0 < unit)
    (hhalf : 2 * |r * unit - q| ≤ unit) : |r * unit - q| ≤ |j * unit - q| := by
  rcases eq_or_ne j r with rfl | hne
  · exact le_rfl
  · -- another multiple is a unit away from this one
    have hone : (1 : ℚ) ≤ |(j : ℚ) - r| := by exact_mod_cast Int.one_le_abs (sub_ne_zero.mpr hne)
    have hapart : unit ≤ |j * unit - r * unit| := by
      rw [← sub_mul, abs_mul, abs_of_pos hunit]
      exact le_mul_of_one_le_left hunit.le hone
    have htriangle : |j * unit - r * unit| ≤ |j * unit - q| + |r * unit - q| := by
      rw [abs_sub_comm (r * unit) q]
      exact abs_sub_le _ _ _
    linarith

/-- Numbers of 53 bits are multiples of the unit, or less than all numbers with that unit. -/
theorem isNearest_of_half {r t : Int} {q : ℚ} (hq : 2 ^ 52 * 2 ^ t ≤ q)
    (hhalf : 2 * |r * (2 : ℚ) ^ t - q| ≤ 2 ^ t) : IsNearest (r * 2 ^ t) q := by
  have hunit : (0 : ℚ) < 2 ^ t := zpow_pos two_pos t
  intro m e hm
  -- from the exponent of the unit on it is a multiple of the unit, and below it is less than `q`
  rcases le_or_gt t e with hle | hlt
  · have hmultiple := abs_sub_le_of_half (j := m * 2 ^ (e - t).toNat) hunit hhalf
    rw [mul_zpow_of_le m hle]
    exact_mod_cast hmultiple
  · have hbits : (m : ℚ) ≤ 2 ^ 53 := by exact_mod_cast ((abs_lt.mp hm).2).le
    have hbelow : (m : ℚ) * 2 ^ e ≤ 2 ^ 52 * 2 ^ t :=
      calc (m : ℚ) * 2 ^ e ≤ 2 ^ 53 * 2 ^ e :=
            mul_le_mul_of_nonneg_right hbits (zpow_pos two_pos e).le
        _ ≤ 2 ^ 53 * 2 ^ (t - 1) :=
            mul_le_mul_of_nonneg_left (zpow_le_zpow_right₀ one_le_two (by omega)) (by positivity)
        _ = 2 ^ 52 * 2 ^ t := by
            rw [zpow_sub_one₀ two_ne_zero]
            ring
    have hleast := abs_sub_le_of_half (j := 2 ^ 52) hunit hhalf
    rw [Int.cast_pow, Int.cast_ofNat, abs_of_nonpos (sub_nonpos.mpr hq)] at hleast
    rw [abs_of_nonpos (sub_nonpos.mpr (hbelow.trans hq))]
    linarith

/-- Rounding gives the nearest number of 53 bits, and a normal double. -/
theorem roundWithAccuracy_nearest (sign : Sign) {places : Nat} (hlog : m.log2 = 52 + places)
    (hleast : -1074 ≤ e + places) (hgreatest : e + places ≤ 970) :
    ∃ (m' : Nat) (e' : Int) (pos : 0 < m'),
      roundWithAccuracy Format.binary64 sign m e .exact = .finite sign m' e' pos ∧
      Normal m' e' ∧ e' ≤ e + places + 1 ∧ IsNearest (m' * 2 ^ e') (m * 2 ^ e) := by
  obtain ⟨m', e', pos, units, hround, hlow, hhigh, hfloor, hceil, hvalue, hupper, hlower⟩ :=
    roundWithAccuracy_of_log2 sign hlog hleast
  refine ⟨m', e', pos, hround, ⟨hlow, hhigh, by omega, by omega⟩, hceil, ?_⟩
  have hunit : (0 : ℚ) < 2 ^ e := zpow_pos two_pos e
  have hpow : (2 : ℚ) ^ (e + places) = 2 ^ places * 2 ^ e := by
    rw [zpow_add₀ two_ne_zero, zpow_natCast, mul_comm]
  rw [hvalue]
  apply isNearest_of_half (r := units)
  · have hne : m ≠ 0 := by
      rintro rfl
      rw [Nat.log2_zero] at hlog
      omega
    have hbits := ((Nat.log2_eq_iff hne).mp hlog).1
    rw [pow_add] at hbits
    rw [hpow, ← mul_assoc]
    exact mul_le_mul_of_nonneg_right (by exact_mod_cast hbits) hunit.le
  · have hfactor : (units : ℚ) * 2 ^ (e + places) - m * 2 ^ e =
        (units * 2 ^ places - m) * 2 ^ e := by
      rw [hpow]
      ring
    have hupper' : 2 * ((units : ℚ) * 2 ^ places) ≤ 2 * m + 2 ^ places := by exact_mod_cast hupper
    have hlower' : 2 * (m : ℚ) ≤ 2 * (units * 2 ^ places) + 2 ^ places := by exact_mod_cast hlower
    have habs : 2 * |(units : ℚ) * 2 ^ places - m| ≤ 2 ^ places := by
      have hhalf : |(units : ℚ) * 2 ^ places - m| ≤ 2 ^ places / 2 :=
        abs_le.mpr ⟨by linarith, by linarith⟩
      linarith
    rw [Int.cast_natCast, hfactor, abs_mul, abs_of_pos hunit, hpow, ← mul_assoc]
    exact mul_le_mul_of_nonneg_right habs hunit.le

/-! ### The double of an integer -/

/-- The double is positive and normal, with an exponent up to the bound, and denotes the number. -/
def IsPositive (x : Float) (bound : Int) (v : ℚ) : Prop :=
  ∃ (m : Nat) (e : Int) (pos : 0 < m), x.toModel.unpack = .finite .positive m e pos ∧ Normal m e ∧
    e ≤ bound ∧ (m : ℚ) * 2 ^ e = v

theorem log2_shiftLeft (pos : 0 < m) (places : Nat) : (m <<< places).log2 = m.log2 + places := by
  obtain ⟨hlow, hhigh⟩ := (Nat.log2_eq_iff pos.ne').mp rfl
  have hpos : 0 < 2 ^ places := Nat.two_pow_pos places
  rw [Nat.shiftLeft_eq, Nat.log2_eq_iff (by positivity), add_right_comm, pow_add, pow_add]
  exact ⟨Nat.mul_le_mul_right _ hlow, Nat.mul_lt_mul_of_pos_right hhigh hpos⟩

theorem shiftLeft_mul_zpow (m places : Nat) (e : Int) :
    ((m <<< places : Nat) : ℚ) * 2 ^ (e - places) = m * 2 ^ e := by
  rw [Nat.shiftLeft_eq, mul_zpow_of_le (m : ℚ) (by omega : e - places ≤ e), sub_sub_cancel,
    Int.toNat_natCast]
  push_cast
  rfl

/-- An integer of 53 bits is written with a mantissa of exactly 53 bits before it is rounded. -/
theorem unpackedOfNat_eq (pos : 0 < m) (hm : m < 2 ^ 53) :
    UnpackedFloat.ofNat Format.binary64 m =
      roundWithAccuracy Format.binary64 .positive (m <<< (52 - m.log2)) (0 - (52 - m.log2 : Nat))
        .exact := by
  have hlog : m.log2 < 53 := (Nat.log2_lt pos.ne').mpr hm
  have htarget : Format.binary64.targetExponent (Float.Model.totalExponent m 0) = m.log2 - 52 := by
    show max ((m.log2 : Int) + 1 + 0 - 53) (-1074) = _
    omega
  have hshift : (0 - ((m.log2 : Int) - 52)).toNat = 52 - m.log2 := by omega
  have hsign : compare (m : Int) 0 = .gt := Int.compare_eq_gt.mpr (by omega)
  rw [UnpackedFloat.ofNat, UnpackedFloat.ofInt, UnpackedFloat.normalize, hsign]
  show UnpackedFloat.round Format.binary64 .positive m 0 = _
  rw [UnpackedFloat.round, htarget, decreaseExponent, hshift]

/-- A word of 53 bits is converted exactly. -/
theorem isPositive_toFloat {n : UInt64} (pos : 0 < n.toNat) (hn : n.toNat < 2 ^ 53) :
    IsPositive n.toFloat 1 n.toNat := by
  have hbits : (n.toNat <<< (52 - n.toNat.log2)).log2 = 52 + 0 := by
    have hlog : n.toNat.log2 < 53 := (Nat.log2_lt pos.ne').mpr hn
    rw [log2_shiftLeft pos]
    omega
  obtain ⟨m, e, mpos, hround, hnormal, hexponent, hnearest⟩ :=
    roundWithAccuracy_nearest .positive hbits
      (by omega : -1074 ≤ 0 - ((52 - n.toNat.log2 : Nat) : Int) + (0 : Nat)) (by omega)
  rw [← unpackedOfNat_eq pos hn] at hround
  refine ⟨m, e, mpos, ?_, hnormal, by omega, ?_⟩
  · have hmodel : Float.Model.ofUInt64 n = Float.Model.pack (.finite .positive m e mpos) :=
      congrArg Float.Model.pack hround
    rw [UInt64.toFloat, hmodel]
    exact unpack_pack hnormal .positive mpos
  · rw [shiftLeft_mul_zpow, zpow_zero, mul_one] at hnearest
    have habs : |(n.toNat : Int)| < 2 ^ 53 := by
      rw [Nat.abs_cast]
      exact_mod_cast hn
    refine hnearest.eq habs (e := 0) ?_
    rw [zpow_zero, mul_one, Int.cast_natCast]

/-- Multiplying by one rounds exactly. -/
theorem IsPositive.timesOne {x : Float} {v : ℚ} {bound : Int} (h : IsPositive x bound v)
    (hbound : bound ≤ 970) :
    IsPositive (x * Float.ofBits 0x3FF0000000000000) (bound + 1) v := by
  obtain ⟨m, e, pos, hx, hnormal, he, rfl⟩ := h
  have hone : (Float.ofBits 0x3FF0000000000000).toModel.unpack =
      .finite .positive (2 ^ 52) (-52) (by decide) := rfl
  have hlog : (m <<< 52).log2 = 52 + 52 := by rw [log2_shiftLeft pos, hnormal.log2_eq pos]
  have hleast := hnormal.least
  obtain ⟨m', e', pos', hround, hnormal', he', hnearest⟩ :=
    roundWithAccuracy_nearest .positive hlog (by omega : -1074 ≤ e - 52 + (52 : Nat)) (by omega)
  refine ⟨m', e', pos', ?_, hnormal', by omega, ?_⟩
  · have hmul : UnpackedFloat.mul Format.binary64 x.toModel.unpack
        (Float.ofBits 0x3FF0000000000000).toModel.unpack = .finite .positive m' e' pos' := by
      rw [hx, hone, ← hround, Nat.shiftLeft_eq]
      rfl
    show (Float.ofModel
      (Float.Model.pack (UnpackedFloat.mul Format.binary64 _ _))).toModel.unpack = _
    rw [hmul]
    exact unpack_pack hnormal' .positive pos'
  · have hshift := shiftLeft_mul_zpow m 52 e
    have habs : |(m : Int)| < 2 ^ 53 := by
      rw [Nat.abs_cast]
      exact_mod_cast hnormal.high
    rw [← hshift]
    exact hnearest.eq habs (by exact_mod_cast hshift.symm)

/-- The double of an integer of 53 bits denotes that integer. -/
theorem isPositive_ofNat {n : Nat} (pos : 0 < n) (hn : n < 2 ^ 53) :
    IsPositive (Float.ofNat n) 971 n := by
  have hofNat : Float.ofNat n = n.toUInt64.toFloat * Float.ofBits 0x3FF0000000000000 := by
    show Float.ofScientific n false 0 = _
    unfold Float.ofScientific
    -- for so few bits the conversion goes through a word, times ten to the power of zero
    rw [dif_pos ⟨hn, Nat.zero_le _⟩]
    rfl
  have hword : n.toUInt64.toNat = n := Nat.mod_eq_of_lt (by omega)
  have hfloat := isPositive_toFloat (n := n.toUInt64) (by omega) (by omega)
  obtain ⟨m, e, mpos, hunpack, hnormal, -, hvalue⟩ := hfloat.timesOne (by omega)
  rw [hofNat]
  exact ⟨m, e, mpos, hunpack, hnormal, hnormal.greatest, by rw [hvalue, hword]⟩

/-- The double of a larger integer is the nearest one. -/
theorem exists_isPositive_ofNat_of_le {n : Nat} (hn : 2 ^ 53 ≤ n) (hlog : n.log2 ≤ 64) :
    ∃ v, IsPositive (Float.ofNat n) 971 v ∧ IsNearest v n := by
  have hofNat : Float.ofNat n = Float.ofModel (Float.Model.ofScientific n 0) := by
    show Float.ofScientific n false 0 = _
    unfold Float.ofScientific
    rw [dif_neg (by omega)]
    rfl
  have hscientific : UnpackedFloat.ofScientific Format.binary64 n 0 =
      roundWithAccuracy Format.binary64 .positive (n <<< 53) (0 - (53 : Nat)) .exact := by
    have hlarge : ¬ (0 : Int) < -((2 ^ 11 : Int) + n.log2) := by omega
    unfold UnpackedFloat.ofScientific
    rw [dif_neg (by omega), if_neg (by decide), if_neg hlarge, if_pos (by decide)]
    show roundWithAccuracy Format.binary64 .positive (n <<< 53 * 1) (0 - (53 : Nat)) .exact = _
    rw [Nat.mul_one]
  have hbits : (n <<< 53).log2 = 52 + (n.log2 + 1) := by
    rw [log2_shiftLeft (by omega)]
    omega
  have hlow : 53 ≤ n.log2 := (Nat.le_log2 (by omega)).mpr hn
  obtain ⟨m, e, mpos, hround, hnormal, -, hnearest⟩ := roundWithAccuracy_nearest .positive hbits
    (by omega : -1074 ≤ 0 - ((53 : Nat) : Int) + (n.log2 + 1 : Nat)) (by omega)
  refine ⟨m * 2 ^ e, ⟨m, e, mpos, ?_, hnormal, hnormal.greatest, rfl⟩, ?_⟩
  · have hmodel : Float.Model.ofScientific n 0 = Float.Model.pack (.finite .positive m e mpos) :=
      congrArg Float.Model.pack (hscientific.trans hround)
    rw [hofNat, hmodel]
    exact unpack_pack hnormal .positive mpos
  · rwa [shiftLeft_mul_zpow, zpow_zero, mul_one] at hnearest

theorem exists_isPositive_ofNat {n : Nat} (pos : 0 < n) (hlog : n.log2 ≤ 64) :
    ∃ v, IsPositive (Float.ofNat n) 971 v ∧ IsNearest v n := by
  rcases Nat.lt_or_ge n (2 ^ 53) with hn | hn
  · exact ⟨n, isPositive_ofNat pos hn, isNearest_self n⟩
  · exact exists_isPositive_ofNat_of_le hn hlog

theorem isFinite_of_unpack {x : Float} {sign : Sign} {pos : 0 < m}
    (h : x.toModel.unpack = .finite sign m e pos) : x.isFinite = true := by
  show x.toModel.unpack.isFinite = true
  rw [h]
  rfl

/-- An integer of a document, signed or unsigned. -/
abbrev InRange (n : Int) : Prop := -0x8000000000000000 ≤ n ∧ n < 0x10000000000000000

/-- The double of an integer is finite, and no number of 53 bits is closer to the integer. -/
theorem isNearest_ofInt {n : Int} (hn : InRange n) :
    (Float.ofInt n).isFinite = true ∧ IsNearest (value (Float.ofInt n)) n := by
  have hlog : ∀ k : Nat, 0 < k → k < 2 ^ 65 → k.log2 ≤ 64 := fun k hpos hk =>
    Nat.le_of_lt_succ ((Nat.log2_lt hpos.ne').mpr hk)
  cases n with
  | ofNat k =>
    rcases Nat.eq_zero_or_pos k with rfl | hpos
    · exact ⟨rfl, isNearest_self 0⟩
    · have hk : (k : Int) < 0x10000000000000000 := hn.2
      obtain ⟨_, ⟨m, e, pos, hunpack, -, -, rfl⟩, hnearest⟩ :=
        exists_isPositive_ofNat hpos (hlog k hpos (by omega))
      have hvalue : value (Float.ofNat k) = m * 2 ^ e := by
        rw [value, hunpack, unpackedValue_positive]
      refine ⟨isFinite_of_unpack hunpack, ?_⟩
      show IsNearest (value (Float.ofNat k)) ((k : Int) : ℚ)
      rw [hvalue]
      exact hnearest
  | negSucc k =>
    obtain ⟨_, ⟨m, e, pos, hunpack, hnormal, -, rfl⟩, hnearest⟩ :=
      exists_isPositive_ofNat (Nat.succ_pos k) (hlog _ (Nat.succ_pos k) (by have := hn.1; omega))
    -- the negative integer has the negated double of its opposite
    have hneg : (Float.ofInt (.negSucc k)).toModel.unpack = .finite .negative m e pos := by
      show (Float.ofModel
        (Float.Model.pack (Float.ofNat (k + 1)).toModel.unpack.neg)).toModel.unpack = _
      rw [hunpack]
      exact unpack_pack hnormal .negative pos
    refine ⟨isFinite_of_unpack hneg, ?_⟩
    rw [value, hneg, unpackedValue_negative, Int.cast_negSucc]
    exact hnearest.neg

/-- A finite double is a number of 53 bits. -/
theorem exists_value_eq {x : Float} (hx : x.isFinite = true) :
    ∃ m e : Int, |m| < 2 ^ 53 ∧ (m : ℚ) * 2 ^ e = value x := by
  have hcanonical := canonical_unpack hx
  rw [value]
  cases hunpack : x.toModel.unpack with
  | notANumber | infinity _ =>
    rw [hunpack] at hcanonical
    cases hcanonical
  | zero sign => exact ⟨0, 0, by decide, by simp [unpackedValue]⟩
  | finite sign m e pos =>
    rw [hunpack] at hcanonical
    refine ⟨sign.apply m, e, ?_, rfl⟩
    have hbits : |(m : Int)| < 2 ^ 53 := by
      rw [Nat.abs_cast]
      exact_mod_cast hcanonical.bits
    cases sign with
    | positive => exact hbits
    | negative => rwa [Sign.apply, abs_neg]

end TransitionRules.Binary64
