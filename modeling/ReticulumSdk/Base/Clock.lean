import ReticulumSdk.Base.Checked

/-! Durations, clock readings and their floating-point views, in nanoseconds. -/

namespace Reticulum

/-- A span of time in nanoseconds. -/
abbrev Duration := Nat

/-- A reading of the monotonic clock in nanoseconds. -/
abbrev Instant := Nat

/-- Nanoseconds in one second. -/
def nanosPerSec : Nat := 1000000000

namespace Duration

/-- `Duration::as_secs_f64`: whole seconds plus the fraction, each rounded on its own. -/
def asSecsF64 (span : Duration) : Float :=
  (UInt64.ofNat (span / nanosPerSec)).toFloat
    + (UInt64.ofNat (span % nanosPerSec)).toFloat / (UInt64.ofNat nanosPerSec).toFloat

/-- `Duration::as_secs_f32`. -/
def asSecsF32 (span : Duration) : Float32 :=
  (UInt64.ofNat (span / nanosPerSec)).toFloat32
    + (UInt64.ofNat (span % nanosPerSec)).toFloat32 / (UInt64.ofNat nanosPerSec).toFloat32

/-- A quotient rounded to the nearest integer, with ties to the even one. -/
def roundHalfEven (numerator denominator : Nat) : Nat :=
  let quotient := numerator / denominator
  let rest := numerator % denominator
  if 2 * rest > denominator ∨ (2 * rest = denominator ∧ quotient % 2 = 1) then quotient + 1
  else quotient

/-- `Duration::from_secs_f64`, which panics on negative, overflowing and undefined values. -/
def fromSecsF64 (secs : Float) : Outcome Duration :=
  let bits := secs.toBits.toNat
  let mantissa := bits % 2 ^ 52 + 2 ^ 52
  let exponent := bits / 2 ^ 52 % 2 ^ 11
  if secs < 0 then .error .durationOutOfRange
  -- Exponents below `2 ^ -32` seconds round to zero nanoseconds.
  else if exponent < 1023 - 31 then .ok 0
  else if exponent < 1023 + 52 then
    .ok (roundHalfEven (mantissa * nanosPerSec) (2 ^ (1023 + 52 - exponent)))
  else if exponent < 1023 + 64 then .ok (mantissa * 2 ^ (exponent - (1023 + 52)) * nanosPerSec)
  -- Infinities and undefined values carry the largest exponent.
  else .error .durationOutOfRange

/-- `Duration::MAX`. -/
def longest : Duration := 2 ^ 64 * nanosPerSec - 1

/-- `Duration::saturating_mul`. -/
def saturatingMul (span : Duration) (factor : Nat) : Duration := min (span * factor) longest

/-- The seconds a span can have: not below zero, and whole seconds of at most 64 bits. -/
def Representable (secs : Float) : Prop :=
  ¬ secs < 0 ∧ secs.toBits.toNat / 2 ^ 52 % 2 ^ 11 < 1023 + 64

/-- A float is a span exactly when it is not negative, and neither too large nor undefined. -/
theorem fromSecsF64_ok_iff (secs : Float) :
    (∃ span, fromSecsF64 secs = .ok span) ↔ Representable secs := by
  -- The four branches are those of the exponent.
  unfold fromSecsF64 Representable
  dsimp only
  split
  · rename_i negative
    simp [negative]
  · rename_i positive
    split
    · rename_i tiny
      exact iff_of_true ⟨0, rfl⟩ ⟨positive, by omega⟩
    · split
      · rename_i rounded
        exact iff_of_true ⟨_, rfl⟩ ⟨positive, by omega⟩
      · split
        · rename_i whole
          exact iff_of_true ⟨_, rfl⟩ ⟨positive, whole⟩
        · rename_i large
          exact iff_of_false (by simp) fun fits => large fits.2

end Duration

namespace Instant

/-- `Instant::checked_add`, empty past the last second a 64-bit clock can name. -/
def checkedAdd (reading : Instant) (span : Duration) : Option Instant :=
  if reading + span < isizeRange * nanosPerSec then some (reading + span) else none

/-- `Instant + Duration`, which panics where there is no such reading. -/
def add (reading : Instant) (span : Duration) : Outcome Instant :=
  match reading.checkedAdd span with
  | some later => .ok later
  | none => .error .durationOutOfRange

/-- `Instant::now() + Duration::from_secs_f64(secs)`. -/
def after (reading : Instant) (secs : Float) : Outcome Instant := do
  reading.add (← Duration.fromSecsF64 secs)

/-- The seconds after which the clock still has a reading. -/
def Reaches (reading : Instant) (secs : Float) : Prop :=
  Duration.Representable secs ∧ ∀ span, Duration.fromSecsF64 secs = .ok span →
    reading + span < isizeRange * nanosPerSec

/-- A time that many seconds away can be named exactly when the clock reaches it. -/
theorem after_ok_iff (reading : Instant) (secs : Float) :
    (∃ later, reading.after secs = .ok later) ↔ reading.Reaches secs := by
  -- The addition is checked twice: the span has to fit a duration, and the sum an instant.
  unfold after Reaches
  rw [← Duration.fromSecsF64_ok_iff]
  cases Duration.fromSecsF64 secs with
  | error fault => simp [Bind.bind, Except.bind]
  | ok span =>
    simp only [Bind.bind, Except.bind, add, checkedAdd, Except.ok.injEq, exists_eq', true_and,
      forall_eq']
    by_cases inside : reading + span < isizeRange * nanosPerSec <;> simp [inside]

/-- `Instant::duration_since`, zero when the other reading is later. -/
def durationSince (reading earlier : Instant) : Duration := reading - earlier

end Instant

-- A tenth of a second is read back from its own float, and half a nanosecond goes to the even side.
example : (Duration.asSecsF64 100000000).toBits = (0.1 : Float).toBits
    ∧ Duration.fromSecsF64 (Duration.asSecsF64 100000000) = .ok 100000000
    ∧ Duration.roundHalfEven 1 2 = 0 := by
  decide +kernel

end Reticulum
