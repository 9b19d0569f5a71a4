import ReticulumSdk.Base.Clock
import ReticulumSdk.Base.FloatRounding

/-! What is read back from the floating-point seconds of a span of time. -/

namespace Reticulum

open FloatRounding

namespace Duration

/-- A quotient that is nearest to a number is rounded to it. -/
private theorem roundHalfEven_eq {numerator denominator quotient : Nat}
    (below : 2 * numerator < (2 * quotient + 1) * denominator)
    (above : 2 * quotient * denominator < 2 * numerator + denominator) :
    roundHalfEven numerator denominator = quotient := by
  have split := Nat.div_add_mod numerator denominator
  have small : numerator % denominator < denominator := Nat.mod_lt _ (by
    rcases Nat.eq_zero_or_pos denominator with rfl | positive
    · omega
    · exact positive)
  unfold roundHalfEven
  dsimp only
  generalize numerator / denominator = cut at *
  generalize numerator % denominator = rest at *
  subst split
  -- The quotient is what the division cuts to, or one more.
  split
  · rename_i up
    have half : denominator ≤ 2 * rest := by omega
    have least : cut < quotient :=
      Nat.lt_of_mul_lt_mul_left (a := denominator) (by nlinarith [below, half])
    have most : 2 * quotient < 2 * cut + 3 :=
      Nat.lt_of_mul_lt_mul_left (a := denominator) (by nlinarith [above, small])
    omega
  · rename_i down
    have half : 2 * rest ≤ denominator := by omega
    have most : quotient < cut + 1 :=
      Nat.lt_of_mul_lt_mul_left (a := denominator) (by nlinarith [above, half])
    have least : 2 * cut < 2 * quotient + 1 :=
      Nat.lt_of_mul_lt_mul_left (a := denominator) (by nlinarith [below])
    omega

/-- Nearness in seconds is nearness of whole numbers. -/
private theorem near_scaled {q j span : Nat}
    (near : |scaled q (-j) - (span : ℚ) / nanosPerSec| < 1 / 2 / nanosPerSec) :
    2 * (q * nanosPerSec) < (2 * span + 1) * 2 ^ j ∧
      2 * span * 2 ^ j < 2 * (q * nanosPerSec) + 2 ^ j := by
  have second : (0 : ℚ) < nanosPerSec := by norm_num [nanosPerSec]
  have width : (0 : ℚ) < 2 ^ j := by positivity
  -- Both sides are multiplied by the nanoseconds of a second and by the unit of the mantissa.
  have product : scaled q (-j) - (span : ℚ) / nanosPerSec =
      (q * nanosPerSec - span * 2 ^ j) / (2 ^ j * nanosPerSec) := by
    unfold scaled
    rw [zpow_neg, zpow_natCast]
    field_simp
  rw [product, abs_div, abs_of_pos (mul_pos width second), div_lt_div_iff₀ (mul_pos width second) second,
    mul_comm (2 ^ j : ℚ), ← mul_assoc, mul_right_comm, mul_lt_mul_iff_left₀ second, abs_lt] at near
  obtain ⟨above, below⟩ := near
  constructor
  · have : 2 * ((q : ℚ) * nanosPerSec) < (2 * span + 1) * 2 ^ j := by linarith
    exact_mod_cast this
  · have : 2 * (span : ℚ) * 2 ^ j < 2 * (q * nanosPerSec) + 2 ^ j := by linarith
    exact_mod_cast this

/-- A float within half a nanosecond of a span is read back as the span. -/
theorem fromSecsF64_of_near {secs : Float} {q span : Nat} {g : Int}
    (holds : Holds secs q g) (fraction : g < 0)
    (near : |scaled q g - (span : ℚ) / nanosPerSec| < 1 / 2 / nanosPerSec) :
    fromSecsF64 secs = .ok span := by
  obtain ⟨least, most⟩ := holds.full
  have low := holds.low
  have bits := holds.toBits
  have mantissa : secs.toBits.toNat % 2 ^ 52 + 2 ^ 52 = q := by omega
  have exponent : secs.toBits.toNat / 2 ^ 52 % 2 ^ 11 = (g + 1075).toNat := by omega
  unfold fromSecsF64
  dsimp only
  rw [mantissa, exponent, if_neg holds.not_neg]
  obtain ⟨j, rfl⟩ : ∃ j : Nat, g = -j := ⟨(-g).toNat, by omega⟩
  obtain ⟨below, above⟩ := near_scaled near
  split
  · -- Where the exponent says so, the span is less than a nanosecond.
    rename_i tiny
    have wide : 2 ^ 84 ≤ 2 ^ j := Nat.pow_le_pow_right Nat.two_pos (by omega)
    have few : 2 * (q * nanosPerSec) < 2 ^ 84 := by
      unfold nanosPerSec
      omega
    have less : 2 * span * 2 ^ j < 2 * 2 ^ j := by omega
    have zero : 2 * span < 2 := Nat.lt_of_mul_lt_mul_right less
    have none : span = 0 := by omega
    rw [none]
  · rw [if_pos (by omega), show 1023 + 52 - (-(j : Int) + 1075).toNat = j by omega,
      roundHalfEven_eq below above]

/-- The nanoseconds of a second as a float, which is exact. -/
private theorem holds_nanosPerSec :
    ∃ n f, Holds (UInt64.ofNat nanosPerSec).toFloat n f ∧ -52 ≤ f ∧ f ≤ 12 ∧
      scaled n f = nanosPerSec := by
  -- It has far fewer than fifty-three bits.
  obtain ⟨n, f, holds, low, high, exact⟩ :=
    @holds_toFloat nanosPerSec (by decide) (by decide)
  exact ⟨n, f, holds, low, high, exact (by decide)⟩

/-- The part of a second that a number of nanoseconds is. -/
private theorem holds_fraction {rest : Nat} (positive : 0 < rest) (small : rest < nanosPerSec) :
    ∃ q g, Holds ((UInt64.ofNat rest).toFloat / (UInt64.ofNat nanosPerSec).toFloat) q g ∧ g < 0 ∧
      |scaled q g - (rest : ℚ) / nanosPerSec| ≤ 2 ^ (-52 : Int) := by
  have width : nanosPerSec < 2 ^ 53 := by decide
  obtain ⟨m, e, holds, low, high, exact⟩ := holds_toFloat positive (by omega)
  obtain ⟨n, f, divisor, divisorLow, divisorHigh, second⟩ := holds_nanosPerSec
  have exact := exact (small.trans width)
  -- A quotient below one has no larger exponent above than below.
  have below : e ≤ f := holds.full.exponent_le divisor.full (by
    rw [exact, second]
    exact_mod_cast small.le)
  obtain ⟨q, g, quotient, -, most, near⟩ := holds.div divisor (by omega) (by omega)
  rw [exact, second] at near
  exact ⟨q, g, quotient, by omega,
    near.trans (zpow_le_zpow_right₀ one_le_two (by omega))⟩

/-- A number of whole seconds and a part of one, added as floats. -/
private theorem holds_sum {whole rest : Nat} (some : 0 < whole ∨ 0 < rest) (small : whole < 2 ^ 64)
    (part : rest < nanosPerSec) :
    ∃ q g, Holds ((UInt64.ofNat whole).toFloat +
        (UInt64.ofNat rest).toFloat / (UInt64.ofNat nanosPerSec).toFloat) q g ∧
      (whole < 2 ^ 23 →
        g < 0 ∧ |scaled q g - (whole + rest / nanosPerSec)| < 1 / 2 / (nanosPerSec : ℚ)) := by
  -- The part is off by far less than half a nanosecond, and the sum by a little less.
  have tiny : (2 : ℚ) ^ (-52 : Int) < 1 / 2 / nanosPerSec := by norm_num [nanosPerSec]
  rcases Nat.eq_zero_or_pos whole with rfl | positive
  · obtain ⟨q, g, holds, fraction, near⟩ := holds_fraction (by omega) part
    rw [holds.zero_add (show _ = Float.Model.UnpackedFloat.zero .positive by rfl)]
    refine ⟨q, g, holds, fun _ => ⟨fraction, ?_⟩⟩
    rw [Nat.cast_zero, zero_add]
    exact near.trans_lt tiny
  obtain ⟨m, e, holds, -, most, exact⟩ := holds_toFloat positive small
  -- A short span has a small exponent.
  have exponent : whole < 2 ^ 23 → e ≤ -30 := fun short => by
    have powers : (2 : ℚ) ^ (52 + e) < 2 ^ (23 : Int) := by
      refine (holds.full.le_scaled e).trans_lt ?_
      rw [exact (by omega)]
      exact_mod_cast short
    have := (zpow_lt_zpow_iff_right₀ one_lt_two).mp powers
    omega
  rcases Nat.eq_zero_or_pos rest with rfl | more
  · rw [holds.add_zero (show _ = Float.Model.UnpackedFloat.zero .positive by rfl)]
    refine ⟨m, e, holds, fun short => ⟨by have := exponent short; omega, ?_⟩⟩
    rw [exact (by omega)]
    norm_num [nanosPerSec]
  · obtain ⟨n, f, summand, fraction, near⟩ := holds_fraction more part
    obtain ⟨q, g, unit, sum, placed, least, rounded⟩ := holds.add summand (by omega) (by omega)
    refine ⟨q, g, sum, fun short => ?_⟩
    rw [exact (by omega)] at least rounded
    have nearBounds := abs_le.mp near
    have lessThanOne : scaled n f < 1 := by
      have : (rest : ℚ) + 1 ≤ nanosPerSec := by exact_mod_cast part
      norm_num [nanosPerSec] at this nearBounds ⊢
      linarith [nearBounds.2]
    -- So the sum stays below the power of two, and half a unit of it below half a nanosecond.
    have units : unit ≤ -30 := by
      have below : (whole : ℚ) + 1 ≤ 2 ^ (23 : Int) := by exact_mod_cast short
      have powers : (2 : ℚ) ^ (52 + unit) < 2 ^ (23 : Int) := by linarith
      have := (zpow_lt_zpow_iff_right₀ one_lt_two).mp powers
      omega
    refine ⟨by omega, ?_⟩
    have half : (2 : ℚ) ^ unit / 2 ≤ 2 ^ (-30 : Int) / 2 :=
      div_le_div_of_nonneg_right (zpow_le_zpow_right₀ one_le_two units) zero_le_two
    have margin : (2 : ℚ) ^ (-30 : Int) / 2 + 2 ^ (-52 : Int) < 1 / 2 / nanosPerSec := by
      norm_num [nanosPerSec]
    calc |scaled q g - (whole + rest / nanosPerSec)|
        = |(scaled q g - (whole + scaled n f)) + (scaled n f - rest / nanosPerSec)| := by
          congr 1
          ring
      _ ≤ |scaled q g - (whole + scaled n f)| + |scaled n f - rest / nanosPerSec| := abs_add_le _ _
      _ < 1 / 2 / nanosPerSec := by linarith

/-- The seconds of a span that is not empty are a float above zero, near the span where it is short. -/
private theorem holds_asSecsF64 {span : Nat} (positive : 0 < span)
    (small : span / nanosPerSec < 2 ^ 64) :
    ∃ q g, Holds (asSecsF64 span) q g ∧ (span < 2 ^ 23 * nanosPerSec →
      g < 0 ∧ |scaled q g - (span : ℚ) / nanosPerSec| < 1 / 2 / nanosPerSec) := by
  -- Whole seconds and the rest are added, and one of them is not zero.
  have split := Nat.div_add_mod span nanosPerSec
  have part : span % nanosPerSec < nanosPerSec := Nat.mod_lt _ (by decide)
  have some : 0 < span / nanosPerSec ∨ 0 < span % nanosPerSec := by
    unfold nanosPerSec
    omega
  obtain ⟨q, g, holds, near⟩ := holds_sum some small part
  refine ⟨q, g, holds, fun short => ?_⟩
  have value : (span : ℚ) / nanosPerSec =
      (span / nanosPerSec : Nat) + (span % nanosPerSec : Nat) / nanosPerSec := by
    have second : (nanosPerSec : ℚ) ≠ 0 := by norm_num [nanosPerSec]
    rw [eq_comm, ← mul_right_inj' second]
    field_simp
    exact_mod_cast split
  rw [value]
  exact near ((Nat.div_lt_iff_lt_mul (by decide)).mpr short)

/-- The seconds of a span are above zero exactly where the span is. -/
theorem asSecsF64_pos_iff {span : Duration} (small : span / nanosPerSec < 2 ^ 64) :
    0 < span.asSecsF64 ↔ 0 < span := by
  -- Zero is zero seconds, and anything else is held.
  rcases Nat.eq_zero_or_pos span with rfl | positive
  · exact iff_of_false (by decide +kernel) (Nat.lt_irrefl 0)
  · obtain ⟨q, g, holds, -⟩ := holds_asSecsF64 positive small
    exact iff_of_true holds.pos positive

/-- The seconds of a span are the float that their bits stand for. -/
theorem ofBits_asSecsF64 {span : Duration} (small : span / nanosPerSec < 2 ^ 64) :
    Float.ofBits span.asSecsF64.toBits = span.asSecsF64 := by
  -- Zero seconds are the float zero, and any other span is held.
  rcases Nat.eq_zero_or_pos span with rfl | positive
  · rfl
  · obtain ⟨q, g, holds, -⟩ := holds_asSecsF64 positive small
    exact holds.ofBits_toBits

/-- The seconds of a span below ninety-seven days are read back as the span. -/
theorem fromSecsF64_asSecsF64 {span : Duration} (short : span < 2 ^ 23 * nanosPerSec) :
    fromSecsF64 span.asSecsF64 = .ok span := by
  -- The seconds are near enough to the span for it to be the nearest nanosecond.
  rcases Nat.eq_zero_or_pos span with rfl | positive
  · decide +kernel
  · have whole : span / nanosPerSec < 2 ^ 23 := (Nat.div_lt_iff_lt_mul (by decide)).mpr short
    obtain ⟨q, g, holds, near⟩ := holds_asSecsF64 positive (whole.trans (by decide))
    exact fromSecsF64_of_near holds (near short).1 (near short).2

end Duration

/-- A time that many seconds away is the reading that far ahead, if the clock has one. -/
theorem Instant.after_eq_ok_iff {reading later : Instant} {secs : Float} :
    reading.after secs = .ok later ↔ ∃ span, Duration.fromSecsF64 secs = .ok span ∧
      reading + span < isizeRange * nanosPerSec ∧ later = reading + span := by
  unfold after
  rw [bind_eq_ok]
  refine exists_congr fun span => and_congr_right fun _ => ?_
  -- The reading is there exactly where the sum is in range.
  unfold add checkedAdd
  by_cases inside : reading + span < isizeRange * nanosPerSec
  · simp [inside, eq_comm]
  · simp [inside]

end Reticulum
