import Mathlib

/-! How far the results of float operations are from the exact ones. -/

namespace Reticulum.FloatRounding

open Float.Model Float.Model.UnpackedFloat

/-- The mantissa that remains after a shift, with what its round bit and its sticky bit say of the rest. -/
private theorem shiftRight_exact (m k : Nat) :
    (ExtendedMantissa.mk m false false >>> k) =
      ⟨m / 2 ^ k, decide (2 ^ k ≤ 2 * (m % 2 ^ k)),
        decide (2 * (m % 2 ^ k) ≠ 0 ∧ 2 * (m % 2 ^ k) ≠ 2 ^ k)⟩ := by
  -- Bit by bit: the bit shifted out last is the round bit, and all before it are gathered in the other.
  induction k with
  | zero =>
    show ExtendedMantissa.mk m false false = _
    simp [Nat.mod_one]
  | succ k ih =>
    show (ExtendedMantissa.mk m false false >>> k).shiftRightOne = _
    rw [ih]
    have positive : 0 < 2 ^ k := Nat.two_pow_pos k
    have rest : m % 2 ^ (k + 1) = m % 2 ^ k + 2 ^ k * (m / 2 ^ k % 2) := by
      rw [Nat.pow_succ, Nat.mod_mul]
    have small : m % 2 ^ k < 2 ^ k := Nat.mod_lt _ positive
    have half : m / 2 ^ (k + 1) = m / 2 ^ k / 2 := by rw [Nat.pow_succ, Nat.div_div_eq_div_mul]
    unfold ExtendedMantissa.shiftRightOne
    rw [half, rest, Nat.pow_succ]
    generalize m % 2 ^ k = remainder at small
    generalize 2 ^ k = width at positive small
    rw [ExtendedMantissa.mk.injEq]
    refine ⟨rfl, ?_, ?_⟩
    · rw [Bool.eq_iff_iff, bne_iff_ne, decide_eq_true_iff]
      rcases Nat.mod_two_eq_zero_or_one (m / width) with even | odd
      · rw [even]
        omega
      · rw [odd]
        omega
    · rw [Bool.eq_iff_iff, Bool.or_eq_true, decide_eq_true_iff, decide_eq_true_iff,
        decide_eq_true_iff]
      rcases Nat.mod_two_eq_zero_or_one (m / width) with even | odd
      · rw [even]
        omega
      · rw [odd]
        omega

/-- Rounding moves a mantissa by one at most. -/
private theorem roundedMantissa_bounds (em : ExtendedMantissa) :
    em.mantissa ≤ em.roundedMantissa ∧ em.roundedMantissa ≤ em.mantissa + 1 := by
  -- The two bits that were kept of the rest decide whether it goes up.
  obtain ⟨mantissa, round, sticky⟩ := em
  have parity := Nat.mod_lt mantissa Nat.two_pos
  cases round <;> cases sticky <;>
    simp only [ExtendedMantissa.roundedMantissa, ExtendedMantissa.accuracy,
      Accuracy.roundToNearestEven] <;> omega

/-- A shifted mantissa is rounded to the nearest. -/
private theorem roundedMantissa_near (m k : Nat) :
    2 * m ≤ (2 * (ExtendedMantissa.mk m false false >>> k).roundedMantissa + 1) * 2 ^ k ∧
      2 * (ExtendedMantissa.mk m false false >>> k).roundedMantissa * 2 ^ k ≤ 2 * m + 2 ^ k := by
  have split := Nat.div_add_mod m (2 ^ k)
  have small : m % 2 ^ k < 2 ^ k := Nat.mod_lt _ (Nat.two_pow_pos k)
  -- It is rounded down where the rest is no more than half a unit, and up where it is no less.
  have direction : ((ExtendedMantissa.mk m false false >>> k).roundedMantissa = m / 2 ^ k ∧
      2 * (m % 2 ^ k) ≤ 2 ^ k) ∨
      ((ExtendedMantissa.mk m false false >>> k).roundedMantissa = m / 2 ^ k + 1 ∧
        2 ^ k ≤ 2 * (m % 2 ^ k)) := by
    rw [shiftRight_exact]
    generalize m % 2 ^ k = remainder at *
    generalize m / 2 ^ k = quotient at *
    generalize 2 ^ k = width at *
    generalize round : decide (width ≤ 2 * remainder) = up
    generalize sticky : decide (2 * remainder ≠ 0 ∧ 2 * remainder ≠ width) = more
    cases up <;> cases more <;>
      simp only [decide_eq_true_iff, decide_eq_false_iff_not] at round sticky <;>
      simp only [ExtendedMantissa.roundedMantissa, ExtendedMantissa.accuracy,
        Accuracy.roundToNearestEven]
    · exact .inl ⟨trivial, by omega⟩
    · exact .inl ⟨trivial, by omega⟩
    · -- A tie goes to the even side.
      rcases Nat.mod_two_eq_zero_or_one quotient with even | odd
      · exact .inl ⟨by omega, by omega⟩
      · exact .inr ⟨by omega, by omega⟩
    · exact .inr ⟨trivial, by omega⟩
  generalize (ExtendedMantissa.mk m false false >>> k).roundedMantissa = rounded at *
  generalize m % 2 ^ k = remainder at *
  generalize m / 2 ^ k = quotient at *
  generalize 2 ^ k = width at *
  subst split
  rcases direction with ⟨rfl, half⟩ | ⟨rfl, half⟩
  · constructor <;> nlinarith
  · constructor <;> nlinarith

/-- A shift divides the mantissa, whatever was lost of it before. -/
private theorem shiftRight_mantissa (em : ExtendedMantissa) (k : Nat) :
    (em >>> k).mantissa = em.mantissa / 2 ^ k := by
  -- Bit by bit, and each of them halves the mantissa.
  induction k with
  | zero =>
    show em.mantissa = _
    simp
  | succ k ih =>
    show (em >>> k).mantissa / 2 = _
    rw [ih, Nat.div_div_eq_div_mul, Nat.pow_succ]

/-- A mantissa that has fifty-three bits. -/
def Full (m : Nat) : Prop := 2 ^ 52 ≤ m ∧ m < 2 ^ 53

/-- Its highest bit is the fifty-third. -/
theorem Full.log2_eq {m : Nat} (full : Full m) : m.log2 = 52 :=
  (Nat.log2_eq_iff (by have := full.1; omega)).mpr full

/-- The shift that a mantissa with enough bits needs to be full. -/
private theorem targetExponent_eq {m : Nat} {e : Int} (wide : 52 ≤ m.log2)
    (low : -1022 ≤ m.log2 + e) :
    Format.binary64.targetExponent (totalExponent m e) = e + (m.log2 - 52 : Nat) := by
  -- Above the smallest exponent the highest bit decides.
  unfold Format.targetExponent totalExponent Format.minExponent Format.mantissaBits
  dsimp only
  omega

/-- A full mantissa is not shifted. -/
private theorem shiftToTargetExponent_full {m : Nat} {e : Int} (full : Full m) (low : -1074 ≤ e) :
    shiftToTargetExponent .binary64 m e .exact = (⟨m, false, false⟩, e) := by
  -- Its own exponent is the target.
  have target := @targetExponent_eq m e (by rw [full.log2_eq]) (by rw [full.log2_eq]; omega)
  unfold shiftToTargetExponent
  rw [target, full.log2_eq]
  simp [shiftToExponent, ExtendedMantissa.ofMantissaAndAccuracy, HShiftRight.hShiftRight, Nat.repeat]

/-- A mantissa that was rounded up to fifty-four bits is shifted by one. -/
private theorem shiftToTargetExponent_carry {e : Int} (low : -1074 ≤ e) :
    shiftToTargetExponent .binary64 (2 ^ 53) e .exact = (⟨2 ^ 52, false, false⟩, e + 1) := by
  -- Its highest bit is one too far up.
  have target := @targetExponent_eq (2 ^ 53) e (by rw [Nat.log2_two_pow]; omega)
    (by rw [Nat.log2_two_pow]; omega)
  unfold shiftToTargetExponent
  rw [target, Nat.log2_two_pow]
  simp [shiftToExponent, ExtendedMantissa.ofMantissaAndAccuracy, HShiftRight.hShiftRight, Nat.repeat,
    ExtendedMantissa.shiftRightOne]

/-- What a mantissa with enough bits is rounded to: a full one, at its exponent or at the next. -/
theorem roundWithAccuracy_wide {m : Nat} {e : Int} (wide : 52 ≤ m.log2) (low : -1022 ≤ m.log2 + e)
    (accuracy : Accuracy) :
    ∃ rounded full exponent positive, Full full ∧
      m / 2 ^ (m.log2 - 52) ≤ rounded ∧ rounded ≤ m / 2 ^ (m.log2 - 52) + 1 ∧
      (accuracy = .exact →
        2 * m ≤ (2 * rounded + 1) * 2 ^ (m.log2 - 52) ∧
          2 * rounded * 2 ^ (m.log2 - 52) ≤ 2 * m + 2 ^ (m.log2 - 52)) ∧
      (full = rounded ∧ exponent = e + (m.log2 - 52 : Nat) ∨
        2 * full = rounded ∧ exponent = e + (m.log2 - 52 : Nat) + 1) ∧
      roundWithAccuracy .binary64 .positive m e accuracy =
        .finite .positive full exponent positive := by
  have target := targetExponent_eq wide low
  have shift : (e + (m.log2 - 52 : Nat) - e).toNat = m.log2 - 52 := by omega
  have nonzero : m ≠ 0 := fun zero => by simp [zero] at wide
  -- What is left after the shift has fifty-three bits.
  have quotient : Full (m / 2 ^ (m.log2 - 52)) := by
    obtain ⟨least, most⟩ := (Nat.log2_eq_iff nonzero).mp rfl
    have split : 2 ^ m.log2 = 2 ^ 52 * 2 ^ (m.log2 - 52) := by
      rw [← Nat.pow_add]
      congr 1
      omega
    have positive := Nat.two_pow_pos (m.log2 - 52)
    refine ⟨(Nat.le_div_iff_mul_le positive).mpr (split ▸ least),
      (Nat.div_lt_iff_lt_mul positive).mpr ?_⟩
    rw [Nat.pow_succ, split] at most
    omega
  generalize rounding : (ExtendedMantissa.ofMantissaAndAccuracy m accuracy >>> (m.log2 - 52)) = em
  have bounds := roundedMantissa_bounds em
  have mantissa : em.mantissa = m / 2 ^ (m.log2 - 52) := by
    rw [← rounding, shiftRight_mantissa]
    cases accuracy with
    | exact => rfl
    | inexact order => cases order <;> rfl
  rw [mantissa] at bounds
  have near : accuracy = .exact →
      2 * m ≤ (2 * em.roundedMantissa + 1) * 2 ^ (m.log2 - 52) ∧
        2 * em.roundedMantissa * 2 ^ (m.log2 - 52) ≤ 2 * m + 2 ^ (m.log2 - 52) := by
    rintro rfl
    rw [← rounding]
    exact roundedMantissa_near m _
  have first : shiftToTargetExponent .binary64 m e accuracy = (em, e + (m.log2 - 52 : Nat)) := by
    unfold shiftToTargetExponent shiftToExponent
    dsimp only
    rw [target, shift, rounding]
  unfold roundWithAccuracy
  rw [first]
  dsimp only
  by_cases fits : em.roundedMantissa < 2 ^ 53
  · have full : Full em.roundedMantissa := ⟨quotient.1.trans bounds.1, fits⟩
    rw [shiftToTargetExponent_full full (by omega)]
    have some : em.roundedMantissa ≠ 0 := by have := full.1; omega
    exact ⟨_, _, _, Nat.pos_of_ne_zero some, full, bounds.1, bounds.2, near, .inl ⟨rfl, rfl⟩,
      dif_neg some⟩
  · -- Rounding up gave a bit more, and the mantissa is a power of two.
    have carry : em.roundedMantissa = 2 ^ 53 := by
      have := quotient.2
      omega
    rw [carry] at bounds near ⊢
    rw [shiftToTargetExponent_carry (by omega)]
    exact ⟨_, 2 ^ 52, _, by decide, ⟨Nat.le_refl _, by decide⟩, bounds.1, bounds.2, near,
      .inr ⟨rfl, rfl⟩, dif_neg (show 2 ^ 52 ≠ 0 by decide)⟩

/-- The sign that was packed is unpacked. -/
private theorem unpackSign_packComponents (sign : Sign) (exponent : BitVec 11)
    (mantissa : BitVec 52) :
    Sign.ofBitVec (unpackSign (packComponents .binary64 sign exponent mantissa)) = sign := by
  -- The highest bit lies in neither of the two fields that were appended to the sign.
  unfold unpackSign packComponents BitVec.extractLsb
  rw [BitVec.extractLsb'_append_eq_of_le (by decide), BitVec.extractLsb'_append_eq_of_le (by decide)]
  cases sign <;> rfl

/-- A full mantissa is packed without its highest bit, and its exponent with the bias. -/
private theorem pack_full {m : Nat} {e : Int} (full : Full m) (low : -1074 ≤ e) (high : e ≤ 971)
    (sign : Sign) (positive : 0 < m) :
    UnpackedFloat.pack .binary64 (.finite sign m e positive) =
      packComponents .binary64 sign (BitVec.ofNat 11 (e + 1075).toNat) (BitVec.ofNat 52 m) := by
  -- The exponent is biased, and tells that the number is normal.
  have biased : (e + (Format.exponentBias .binary64 : Nat) + (52 : Nat)).toNat = (e + 1075).toNat := by
    simp only [Format.exponentBias]
    omega
  unfold UnpackedFloat.pack
  dsimp only
  rw [biased, full.log2_eq, if_neg (by omega)]
  exact if_pos rfl

/-- A full mantissa with an exponent in range is what is unpacked after it was packed. -/
theorem unpack_pack {m : Nat} {e : Int} (full : Full m) (low : -1074 ≤ e) (high : e ≤ 971)
    (sign : Sign) (positive : 0 < m) :
    (Float.Model.pack (.finite sign m e positive)).unpack = .finite sign m e positive := by
  have packed := pack_full full low high sign positive
  have exponent : (BitVec.ofNat 11 (e + 1075).toNat).toNat = (e + 1075).toNat := by
    rw [BitVec.toNat_ofNat, Nat.mod_eq_of_lt (by omega)]
  -- Its exponent is neither that of the infinities nor that of the numbers below the normal ones.
  have normal : ∀ other : BitVec 11, (e + 1075).toNat ≠ other.toNat →
      BitVec.ofNat 11 (e + 1075).toNat ≠ other :=
    fun other apart same => apart (exponent.symm.trans (congrArg BitVec.toNat same))
  have infinite := normal (-1#11) (by simp; omega)
  have tiny := normal 0#11 (by simp; omega)
  -- The bit that was left out is put back in front.
  have mantissa : (1#1 ++ BitVec.ofNat 52 m).toNat = m := by
    obtain ⟨least, most⟩ := full
    rw [BitVec.toNat_append, ← Nat.shiftLeft_add_eq_or_of_lt (BitVec.isLt _)]
    simp only [BitVec.toNat_ofNat, Nat.shiftLeft_eq]
    omega
  unfold Float.Model.unpack Float.Model.pack UnpackedFloat.unpack
  simp only [packed, unpackExponent_packComponents, unpackMantissa_packComponents,
    unpackSign_packComponents]
  rw [if_neg infinite, if_neg tiny]
  congr 1
  rw [exponent]
  simp only [Format.exponentBias]
  omega

/-- The bits of a positive float: its exponent in front of its mantissa without the highest bit. -/
theorem toBits_pack {m : Nat} {e : Int} (full : Full m) (low : -1074 ≤ e) (high : e ≤ 971)
    (positive : 0 < m) :
    (Float.Model.pack (.finite .positive m e positive)).toBits.toNat =
      (e + 1075).toNat * 2 ^ 52 + (m - 2 ^ 52) := by
  -- The three fields stand side by side, and the sign is zero.
  have packed := pack_full full low high .positive positive
  unfold Float.Model.pack
  simp only [packed, UInt64.toNat_ofBitVec]
  unfold packComponents
  rw [BitVec.toNat_append, ← Nat.shiftLeft_add_eq_or_of_lt (BitVec.isLt _), BitVec.toNat_append,
    ← Nat.shiftLeft_add_eq_or_of_lt (BitVec.isLt _)]
  obtain ⟨least, most⟩ := full
  have exponent : (e + 1075).toNat < 2 ^ 11 := by omega
  simp only [BitVec.toNat_ofNat, Nat.shiftLeft_eq, Sign.toBitVec, Nat.mod_eq_of_lt exponent]
  omega

/-- What a mantissa stands for at an exponent. -/
def scaled (m : Nat) (e : Int) : ℚ := m * 2 ^ e

/-- Twice a mantissa stands for the same as the mantissa at the next exponent. -/
theorem scaled_double (m : Nat) (e : Int) : scaled (2 * m) e = scaled m (e + 1) := by
  unfold scaled
  rw [zpow_add_one₀ two_ne_zero]
  push_cast
  ring

/-- A mantissa shifted to the left stands for the same at an exponent that is less by the shift. -/
theorem scaled_shift (m k : Nat) (e : Int) : scaled (m * 2 ^ k) e = scaled m (e + k) := by
  -- The powers of two are added.
  unfold scaled
  rw [zpow_add₀ two_ne_zero, zpow_natCast]
  push_cast
  ring

/-- A larger mantissa stands for more. -/
theorem scaled_le {m n : Nat} (e : Int) (le : m ≤ n) : scaled m e ≤ scaled n e :=
  mul_le_mul_of_nonneg_right (by exact_mod_cast le) (by positivity)

/-- A full mantissa stands for no less than its highest bit does. -/
theorem Full.le_scaled {m : Nat} (full : Full m) (e : Int) : (2 : ℚ) ^ (52 + e) ≤ scaled m e := by
  -- The highest bit is a power of two by itself.
  refine le_trans (le_of_eq ?_) (scaled_le e full.1)
  unfold scaled
  rw [zpow_add₀ two_ne_zero]
  norm_num

/-- And for less than the bit above it does. -/
theorem Full.scaled_lt {m : Nat} (full : Full m) (e : Int) : scaled m e < 2 ^ (53 + e) := by
  -- The mantissa is below the power of two.
  have unit : (0 : ℚ) < 2 ^ e := by positivity
  have below : (m : ℚ) < 2 ^ 53 := by exact_mod_cast full.2
  unfold scaled
  rw [zpow_add₀ two_ne_zero]
  exact mul_lt_mul_of_pos_right below unit

/-- Of two full mantissas the one that stands for less has no larger exponent. -/
theorem Full.exponent_le {m n : Nat} {e f : Int} (full : Full m) (other : Full n)
    (less : scaled m e ≤ scaled n f) : e ≤ f := by
  -- The highest bits compare as the exponents do.
  have powers : (2 : ℚ) ^ (52 + e) < 2 ^ (53 + f) :=
    ((full.le_scaled e).trans less).trans_lt (other.scaled_lt f)
  have := (zpow_lt_zpow_iff_right₀ one_lt_two).mp powers
  omega

/--
A mantissa with enough bits is rounded to a full one: within one unit of what remains of it after
the shift, and within half a unit where nothing was lost before.
-/
theorem roundWithAccuracy_scaled {m : Nat} {e : Int} (wide : 52 ≤ m.log2)
    (low : -1022 ≤ m.log2 + e) (accuracy : Accuracy) :
    ∃ full exponent positive, Full full ∧
      (exponent = e + (m.log2 - 52 : Nat) ∨ exponent = e + (m.log2 - 52 : Nat) + 1) ∧
      scaled (m / 2 ^ (m.log2 - 52)) (e + (m.log2 - 52 : Nat)) ≤ scaled full exponent ∧
      scaled full exponent ≤ scaled (m / 2 ^ (m.log2 - 52) + 1) (e + (m.log2 - 52 : Nat)) ∧
      (accuracy = .exact →
        |scaled full exponent - scaled m e| ≤ 2 ^ (e + (m.log2 - 52 : Nat)) / 2) ∧
      roundWithAccuracy .binary64 .positive m e accuracy =
        .finite .positive full exponent positive := by
  obtain ⟨rounded, full, exponent, positive, isFull, least, most, near, carried, result⟩ :=
    roundWithAccuracy_wide wide low accuracy
  generalize m.log2 - 52 = k at *
  -- Whether a bit was carried or not, the result stands for the rounded mantissa.
  have value : scaled full exponent = scaled rounded (e + k) := by
    rcases carried with ⟨rfl, rfl⟩ | ⟨rfl, rfl⟩
    · rfl
    · rw [scaled_double]
  refine ⟨full, exponent, positive, isFull, carried.imp And.right And.right, ?_, ?_, ?_, result⟩
  · rw [value]
    exact scaled_le _ least
  · rw [value]
    exact scaled_le _ most
  · intro exact
    obtain ⟨below, above⟩ := near exact
    rw [value]
    unfold scaled
    rw [zpow_add₀ two_ne_zero, zpow_natCast]
    have unit : (0 : ℚ) < 2 ^ e := by positivity
    have belowQ : 2 * (m : ℚ) ≤ (2 * rounded + 1) * 2 ^ k := by exact_mod_cast below
    have aboveQ : 2 * (rounded : ℚ) * 2 ^ k ≤ 2 * m + 2 ^ k := by exact_mod_cast above
    rw [abs_le]
    constructor <;> nlinarith

/-- A result within half a unit of a mantissa at the same exponent is that mantissa. -/
private theorem scaled_eq_of_near {m full : Nat} {e exponent : Int}
    (placed : exponent = e ∨ exponent = e + 1)
    (near : |scaled full exponent - scaled m e| ≤ 2 ^ e / 2) : scaled full exponent = scaled m e := by
  obtain ⟨rounded, value⟩ : ∃ rounded : Nat, scaled full exponent = scaled rounded e := by
    rcases placed with rfl | rfl
    · exact ⟨full, rfl⟩
    · exact ⟨2 * full, (scaled_double full e).symm⟩
  rw [value] at near ⊢
  have unit : (0 : ℚ) < 2 ^ e := by positivity
  unfold scaled at near
  rw [← sub_mul, abs_mul, abs_of_pos unit] at near
  -- The difference of two whole numbers is less than one.
  have close : |((rounded : Int) - m : ℚ)| < 1 := by
    have half : |(rounded : ℚ) - m| ≤ 1 / 2 := by
      rw [div_eq_mul_one_div, mul_comm] at near
      exact le_of_mul_le_mul_left near unit
    push_cast
    linarith
  have same : (rounded : Int) - m = 0 := by
    rw [← Int.abs_lt_one_iff]
    exact_mod_cast close
  rw [show rounded = m by omega]

/-- A shift to the left adds to the bits of a number. -/
private theorem log2_shiftLeft {n : Nat} (positive : 0 < n) (k : Nat) :
    (n <<< k).log2 = n.log2 + k := by
  -- Both bounds of the logarithm are multiplied by the power of two.
  obtain ⟨least, most⟩ := (Nat.log2_eq_iff (Nat.ne_of_gt positive)).mp rfl
  rw [Nat.shiftLeft_eq]
  have width := Nat.two_pow_pos k
  refine (Nat.log2_eq_iff (Nat.ne_of_gt (Nat.mul_pos positive width))).mpr ⟨?_, ?_⟩
  · rw [Nat.pow_add]
    exact Nat.mul_le_mul_right _ least
  · rw [show n.log2 + k + 1 = n.log2 + 1 + k by omega, Nat.pow_add]
    exact Nat.mul_lt_mul_of_pos_right most width

/-- A positive float that is normal, by its mantissa and its exponent. -/
structure Holds (float : Float) (m : Nat) (e : Int) : Prop where
  full : Full m
  low : -1074 ≤ e
  high : e ≤ 971
  packed : ∃ positive, float = .ofModel (.pack (.finite .positive m e positive))

namespace Holds

variable {float other : Float} {m n : Nat} {e f : Int}

/-- It unpacks to what was packed. -/
theorem unpacked (holds : Holds float m e) :
    ∃ positive, float.toModel.unpack = .finite .positive m e positive := by
  obtain ⟨positive, rfl⟩ := holds.packed
  exact ⟨positive, unpack_pack holds.full holds.low holds.high .positive positive⟩

/-- It is above zero. -/
theorem pos (holds : Holds float m e) : 0 < float := by
  obtain ⟨positive, unpacked⟩ := holds.unpacked
  -- The order of floats is the comparison of what they unpack to, seen through a decision.
  show decide (((0 : Float).toModel.unpack.compare float.toModel.unpack == some .lt) = true) = true
  have zero : (0 : Float).toModel.unpack = .zero .positive := by rfl
  rw [unpacked, zero]
  rfl

/-- It is not below zero. -/
theorem not_neg (holds : Holds float m e) : ¬ float < 0 := by
  obtain ⟨positive, unpacked⟩ := holds.unpacked
  show ¬ decide ((float.toModel.unpack.compare (0 : Float).toModel.unpack == some .lt) = true) = true
  have zero : (0 : Float).toModel.unpack = .zero .positive := by rfl
  rw [unpacked, zero]
  exact Bool.false_ne_true

/-- Zero adds nothing to it. -/
theorem zero_add (holds : Holds float m e) {sign : Sign} (zero : other.toModel.unpack = .zero sign) :
    other + float = float := by
  -- The sum is what the other unpacks to, which is packed again.
  obtain ⟨_, unpacked⟩ := holds.unpacked
  obtain ⟨_, packed⟩ := holds.packed
  show Float.ofModel (.pack (UnpackedFloat.add .binary64 other.toModel.unpack
    float.toModel.unpack)) = float
  rw [zero, unpacked]
  exact packed.symm

/-- It adds nothing to zero. -/
theorem add_zero (holds : Holds float m e) {sign : Sign} (zero : other.toModel.unpack = .zero sign) :
    float + other = float := by
  -- The sum is what the float unpacks to, which is packed again.
  obtain ⟨_, unpacked⟩ := holds.unpacked
  obtain ⟨_, packed⟩ := holds.packed
  show Float.ofModel (.pack (UnpackedFloat.add .binary64 float.toModel.unpack
    other.toModel.unpack)) = float
  rw [zero, unpacked]
  exact packed.symm

/-- It is the float that its bits stand for. -/
theorem ofBits_toBits (holds : Holds float m e) : Float.ofBits float.toBits = float := by
  -- Reading the bits packs what they unpack to.
  obtain ⟨positive, unpacked⟩ := holds.unpacked
  obtain ⟨_, packed⟩ := holds.packed
  show Float.ofModel (.pack float.toModel.unpack) = float
  rw [unpacked]
  exact packed.symm

/-- Its bits are its exponent and its mantissa without the highest bit. -/
theorem toBits (holds : Holds float m e) :
    float.toBits.toNat = (e + 1075).toNat * 2 ^ 52 + (m - 2 ^ 52) := by
  obtain ⟨positive, rfl⟩ := holds.packed
  exact toBits_pack holds.full holds.low holds.high positive

end Holds

/-- A natural number is held, exactly where it has no more than fifty-three bits. -/
theorem holds_toFloat {n : Nat} (positive : 0 < n) (small : n < 2 ^ 64) :
    ∃ m e, Holds (UInt64.ofNat n).toFloat m e ∧ -52 ≤ e ∧ e ≤ 12 ∧
      (n < 2 ^ 53 → scaled m e = n) := by
  -- A number of fewer bits is shifted to the left before it is rounded.
  have bits : n.log2 < 64 := (Nat.log2_lt (Nat.ne_of_gt positive)).mpr small
  have target : Format.binary64.targetExponent (totalExponent n 0) = (n.log2 : Int) - 52 := by
    unfold Format.targetExponent totalExponent Format.minExponent Format.mantissaBits
    dsimp only
    omega
  have amount : ((0 : Int) - ((n.log2 : Int) - 52)).toNat = 52 - n.log2 := by omega
  have log : (n <<< (52 - n.log2)).log2 = n.log2 + (52 - n.log2) :=
    log2_shiftLeft positive _
  obtain ⟨full, exponent, some, isFull, placed, -, -, near, result⟩ :=
    @roundWithAccuracy_scaled (n <<< (52 - n.log2)) (0 - (52 - n.log2 : Nat)) (by rw [log]; omega)
      (by rw [log]; omega) .exact
  have rounded : (UInt64.ofNat n).toFloat = .ofModel (.pack (.finite .positive full exponent some)) := by
    show Float.ofModel (.pack (UnpackedFloat.normalize .binary64 ((UInt64.ofNat n).toNat : Int) 0
      .positive)) = _
    rw [UInt64.toNat_ofNat_of_lt' small]
    unfold UnpackedFloat.normalize
    rw [Int.compare_eq_gt.mpr (by omega)]
    dsimp only
    rw [Int.toNat_natCast]
    unfold UnpackedFloat.round
    rw [target]
    unfold decreaseExponent
    dsimp only
    rw [amount, result]
  rw [log] at placed near
  refine ⟨full, exponent, ⟨isFull, by omega, by omega, some, rounded⟩, by omega, by omega, fun few => ?_⟩
  -- Nothing is lost of a mantissa that needs no shift to the right.
  have short : n.log2 ≤ 52 := by have := (Nat.log2_lt (Nat.ne_of_gt positive)).mpr few; omega
  have whole : n.log2 + (52 - n.log2) - 52 = 0 := by omega
  rw [whole] at placed near
  simp only [Nat.cast_zero, add_zero] at placed near
  have number : scaled (n <<< (52 - n.log2)) (0 - (52 - n.log2 : Nat)) = n := by
    rw [Nat.shiftLeft_eq, scaled_shift]
    simp [scaled]
  rw [← number]
  exact scaled_eq_of_near placed (near trivial)

/-- What divides a shifted mantissa, and at which exponent. -/
private theorem divCore_full {m n : Nat} {e f : Int} (full : Full m) (divisor : Full n)
    (low : -1021 ≤ e - f) :
    divCore .binary64 m e n f =
      (m <<< 53 / n, e - f - 53, accuracyOfFraction (m <<< 53 % n) n) := by
  -- Both mantissas have the same width, so the exponents decide.
  have target : Format.binary64.targetExponent (totalExponent m e - totalExponent n f) =
      e - f - 53 := by
    unfold Format.targetExponent totalExponent Format.minExponent Format.mantissaBits
    rw [full.log2_eq, divisor.log2_eq]
    dsimp only
    omega
  unfold divCore
  dsimp only
  rw [target, min_eq_right (by omega), show (e - f - (e - f - 53)).toNat = 53 by omega]

/-- The quotient of two full mantissas, the first shifted by their width, has at most a bit more. -/
private theorem quotient_log2 {m n : Nat} (full : Full m) (divisor : Full n) :
    (m <<< 53 / n).log2 = 52 ∨ (m <<< 53 / n).log2 = 53 := by
  -- The quotient of the mantissas alone is more than a half and less than two.
  obtain ⟨least, most⟩ := full
  obtain ⟨divisorLeast, divisorMost⟩ := divisor
  have positive : 0 < n := by omega
  have atLeast : 2 ^ 52 ≤ m <<< 53 / n := by
    rw [Nat.le_div_iff_mul_le positive, Nat.shiftLeft_eq]
    omega
  have below : m <<< 53 / n < 2 ^ 54 := by
    rw [Nat.div_lt_iff_lt_mul positive, Nat.shiftLeft_eq]
    omega
  have nonzero : m <<< 53 / n ≠ 0 := by omega
  have high := (Nat.log2_lt nonzero).mpr below
  have wide := (Nat.le_log2 nonzero).mpr atLeast
  omega

/-- A quotient lies between what is left of it after it was cut and one more. -/
private theorem quotient_bounds {m n : Nat} {e f : Int} (positive : 0 < n) (k : Nat) :
    scaled (m <<< 53 / n / 2 ^ k) (e - f - 53 + k) ≤ scaled m e / scaled n f ∧
      scaled m e / scaled n f ≤ scaled (m <<< 53 / n / 2 ^ k + 1) (e - f - 53 + k) := by
  -- Cutting twice is cutting once.
  rw [Nat.div_div_eq_div_mul, Nat.shiftLeft_eq]
  have width : 0 < n * 2 ^ k := Nat.mul_pos positive (Nat.two_pow_pos k)
  have below := Nat.div_mul_le_self (m * 2 ^ 53) (n * 2 ^ k)
  have above := (Nat.lt_mul_div_succ (m * 2 ^ 53) width).le
  generalize m * 2 ^ 53 / (n * 2 ^ k) = quotient at below above
  have divisor : 0 < scaled n f := by
    unfold scaled
    have : (0 : ℚ) < n := by exact_mod_cast positive
    positivity
  have unit : (0 : ℚ) < 2 ^ (e - 53) := by positivity
  -- Both sides are multiplied by the divisor.
  have product : ∀ cut : Nat, scaled cut (e - f - 53 + k) * scaled n f =
      (cut * (n * 2 ^ k) : Nat) * 2 ^ (e - 53) := fun cut => by
    unfold scaled
    rw [show e - 53 = e - f - 53 + k + f - k by ring, zpow_sub₀ two_ne_zero, zpow_add₀ two_ne_zero _ f,
      zpow_natCast]
    push_cast
    field_simp
  have exact : scaled m e = (m * 2 ^ 53 : Nat) * 2 ^ (e - 53) := by
    show scaled m e = scaled (m * 2 ^ 53) (e - 53)
    rw [scaled_shift]
    congr 1
    push_cast
    ring
  rw [le_div_iff₀ divisor, div_le_iff₀ divisor, product, product, exact]
  constructor
  · exact mul_le_mul_of_nonneg_right (by exact_mod_cast below) unit.le
  · refine mul_le_mul_of_nonneg_right ?_ unit.le
    exact Nat.cast_le.mpr (above.trans_eq (Nat.mul_comm _ _))

/-- The sum of two shifted mantissas has at most a bit more than the longer one. -/
private theorem shifted_log2 {m n : Nat} (full : Full m) (summand : Full n) (a b : Nat) :
    52 ≤ (m <<< a + n <<< b).log2 ∧ (m <<< a + n <<< b).log2 ≤ 53 + max a b := by
  -- The sum is below twice what bounds each of the two.
  rw [Nat.shiftLeft_eq, Nat.shiftLeft_eq]
  have shift : 2 ^ a ≤ 2 ^ max a b := Nat.pow_le_pow_right Nat.two_pos (Nat.le_max_left _ _)
  have otherShift : 2 ^ b ≤ 2 ^ max a b := Nat.pow_le_pow_right Nat.two_pos (Nat.le_max_right _ _)
  have first : m ≤ m * 2 ^ a := Nat.le_mul_of_pos_right m (Nat.two_pow_pos a)
  have second : m * 2 ^ a ≤ 2 ^ 53 * 2 ^ max a b := Nat.mul_le_mul full.2.le shift
  have third : n * 2 ^ b < 2 ^ 53 * 2 ^ max a b :=
    (Nat.mul_lt_mul_of_pos_right summand.2 (Nat.two_pow_pos b)).trans_le
      (Nat.mul_le_mul_left _ otherShift)
  have nonzero : m * 2 ^ a + n * 2 ^ b ≠ 0 := by have := full.1; omega
  refine ⟨(Nat.le_log2 nonzero).mpr (by have := full.1; omega), ?_⟩
  rw [← Nat.lt_succ_iff, Nat.log2_lt nonzero,
    show (53 + max a b).succ = 53 + 1 + max a b by omega, Nat.pow_add, Nat.pow_succ]
  omega

/-- A mantissa with enough bits is not shifted to the left before it is rounded. -/
private theorem normalize_wide {m : Nat} {e : Int} (wide : 52 ≤ m.log2) (low : -1022 ≤ m.log2 + e) :
    UnpackedFloat.normalize .binary64 m e .positive = roundWithAccuracy .binary64 .positive m e .exact := by
  -- Its exponent is below the target already.
  have nonzero : m ≠ 0 := fun zero => by simp [zero] at wide
  unfold UnpackedFloat.normalize UnpackedFloat.round decreaseExponent
  rw [Int.compare_eq_gt.mpr (by omega)]
  dsimp only
  rw [Int.toNat_natCast, targetExponent_eq wide low,
    show (e - (e + (m.log2 - 52 : Nat))).toNat = 0 by omega, Nat.shiftLeft_zero]
  simp

namespace Holds

variable {float other : Float} {m n : Nat} {e f : Int}

/-- The quotient of two held floats is held, within a unit of what a quotient below one is cut to. -/
theorem div (holds : Holds float m e) (divisor : Holds other n f) (low : -1021 ≤ e - f)
    (high : e - f ≤ 1022) :
    ∃ q g, Holds (float / other) q g ∧ e - f - 53 ≤ g ∧ g ≤ e - f - 51 ∧
      |scaled q g - scaled m e / scaled n f| ≤ 2 ^ (e - f - 52) := by
  obtain ⟨_, unpacked⟩ := holds.unpacked
  obtain ⟨positive, divisorUnpacked⟩ := divisor.unpacked
  have log := quotient_log2 holds.full divisor.full
  obtain ⟨full, exponent, some, isFull, placed, least, most, -, result⟩ :=
    @roundWithAccuracy_scaled (m <<< 53 / n) (e - f - 53) (by omega) (by omega)
      (accuracyOfFraction (m <<< 53 % n) n)
  refine ⟨full, exponent, ⟨isFull, by omega, by omega, some, ?_⟩, by omega, by omega, ?_⟩
  · show Float.ofModel (.pack (UnpackedFloat.div .binary64 float.toModel.unpack
      other.toModel.unpack)) = _
    rw [unpacked, divisorUnpacked]
    unfold UnpackedFloat.div
    dsimp only
    rw [divCore_full holds.full divisor.full low]
    dsimp only
    exact congrArg _ (congrArg _ result)
  · -- The result and the quotient lie between the same two neighbours.
    have within := @quotient_bounds m n e f positive ((m <<< 53 / n).log2 - 52)
    generalize shift : (m <<< 53 / n).log2 - 52 = k at *
    have neighbours : scaled (m <<< 53 / n / 2 ^ k + 1) (e - f - 53 + k) =
        scaled (m <<< 53 / n / 2 ^ k) (e - f - 53 + k) + 2 ^ (e - f - 53 + k) := by
      unfold scaled
      push_cast
      ring
    have unit : (2 : ℚ) ^ (e - f - 53 + k) ≤ 2 ^ (e - f - 52) :=
      zpow_le_zpow_right₀ one_le_two (by omega)
    rw [abs_le]
    constructor <;> linarith [within.1, within.2]

/--
The sum of two held floats is held, within half a unit of the exact sum, which has no more than
fifty-two of these units.
-/
theorem add (holds : Holds float m e) (summand : Holds other n f) (high : e ≤ 969)
    (otherHigh : f ≤ 969) :
    ∃ q g unit, Holds (float + other) q g ∧ (g = unit ∨ g = unit + 1) ∧
      2 ^ (52 + unit) ≤ scaled m e + scaled n f ∧
      |scaled q g - (scaled m e + scaled n f)| ≤ 2 ^ unit / 2 := by
  obtain ⟨positive, unpacked⟩ := holds.unpacked
  obtain ⟨otherPositive, otherUnpacked⟩ := summand.unpacked
  have low := holds.low
  have otherLow := summand.low
  -- Both mantissas are brought to the smaller exponent, where their sum is exact.
  generalize mantissa : m <<< (e - min e f).toNat + n <<< (f - min e f).toNat = sum
  generalize smaller : min e f = base at mantissa
  have exact : scaled sum base = scaled m e + scaled n f := by
    rw [← mantissa]
    have first : scaled (m <<< (e - base).toNat) base = scaled m e := by
      rw [Nat.shiftLeft_eq, scaled_shift]
      congr 1
      omega
    have second : scaled (n <<< (f - base).toNat) base = scaled n f := by
      rw [Nat.shiftLeft_eq, scaled_shift]
      congr 1
      omega
    rw [← first, ← second]
    unfold scaled
    push_cast
    ring
  obtain ⟨wide, bounded⟩ : 52 ≤ sum.log2 ∧ sum.log2 + base ≤ 1022 := by
    rw [← mantissa]
    have log := shifted_log2 holds.full summand.full (e - base).toNat (f - base).toNat
    omega
  obtain ⟨full, exponent, some, isFull, placed, -, -, near, result⟩ :=
    @roundWithAccuracy_scaled sum base wide (by omega) .exact
  refine ⟨full, exponent, base + (sum.log2 - 52 : Nat), ⟨isFull, by omega, by omega, some, ?_⟩,
    placed, ?_, ?_⟩
  · show Float.ofModel (.pack (UnpackedFloat.add .binary64 float.toModel.unpack
      other.toModel.unpack)) = _
    rw [unpacked, otherUnpacked]
    unfold UnpackedFloat.add decreaseExponent
    dsimp only
    rw [smaller, ← result, ← normalize_wide wide (by omega), ← mantissa]
    rfl
  · rw [← exact]
    have nonzero : sum ≠ 0 := fun zero => by simp [zero] at wide
    have least : 2 ^ sum.log2 ≤ sum := Nat.log2_self_le nonzero
    calc (2 : ℚ) ^ (52 + (base + (sum.log2 - 52 : Nat))) = scaled (2 ^ sum.log2) base := by
          unfold scaled
          push_cast
          rw [← zpow_natCast, ← zpow_add₀ two_ne_zero]
          congr 1
          omega
      _ ≤ scaled sum base := scaled_le base least
  · rw [← exact]
    exact near rfl

end Holds

end Reticulum.FloatRounding
