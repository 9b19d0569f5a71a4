import Mathlib

/-! The floats that are numbers are ordered by where they stand, whatever the format. -/

namespace Reticulum

open Float.Model Float.Model.UnpackedFloat

namespace FloatOrder

/-- A sign as a factor. -/
def signum : Sign → Int
  | .negative => -1
  | .positive => 1

/-- Where a float stands: infinities outermost, then by exponent and by mantissa. -/
def rank : UnpackedFloat → Int ×ₗ Int ×ₗ Int
  -- A finite float of either sign stands strictly between zero and the infinity of its sign.
  | .infinity sign => toLex (2 * signum sign, toLex (0, 0))
  | .notANumber => toLex (0, toLex (0, 0))
  | .zero _ => toLex (0, toLex (0, 0))
  -- The larger the exponent, the further from zero, on the side that the sign tells.
  | .finite sign mantissa exponent _ =>
    toLex (signum sign, toLex (signum sign * exponent, signum sign * mantissa))

/-- Two mantissas with their exponents compare as their pairs do. -/
private theorem then_eq_lt_iff {first second : Int} {left right : Nat} :
    (compare first second).then (compare left right) = .lt ↔
      first < second ∨ first = second ∧ left < right := by
  rw [Ordering.then_eq_lt, compare_lt_iff_lt, compare_eq_iff_eq, Nat.compare_eq_lt]

/-- The same the other way around. -/
private theorem then_eq_gt_iff {first second : Int} {left right : Nat} :
    (compare first second).then (compare left right) = .gt ↔
      second < first ∨ first = second ∧ right < left := by
  rw [Ordering.then_eq_gt, compare_gt_iff_gt, compare_eq_iff_eq, Nat.compare_eq_gt]

/-- Among numbers the comparison is that of the ranks. -/
theorem compare_eq_lt_iff {a b : UnpackedFloat} (aNumber : a ≠ .notANumber)
    (bNumber : b ≠ .notANumber) : a.compare b = some .lt ↔ rank a < rank b := by
  -- The class decides between different classes, and the pair of exponent and mantissa inside one.
  cases a with
  | notANumber => exact absurd rfl aNumber
  -- An infinity is beyond everything but itself.
  | infinity sign =>
    cases b with
    | notANumber => exact absurd rfl bNumber
    | infinity other => cases sign <;> cases other <;> decide
    | zero other => cases sign <;> simp [UnpackedFloat.compare, rank, signum, Prod.Lex.toLex_lt_toLex]
    | finite other mantissa exponent positive =>
      cases sign <;> cases other <;>
        simp [UnpackedFloat.compare, rank, signum, Prod.Lex.toLex_lt_toLex]
  -- The two zeros are equal, and between the numbers of either sign.
  | zero sign =>
    cases b with
    | notANumber => exact absurd rfl bNumber
    | infinity other => cases other <;> simp [UnpackedFloat.compare, rank, signum, Prod.Lex.toLex_lt_toLex]
    | zero other => simp [UnpackedFloat.compare, rank]
    | finite other mantissa exponent positive =>
      cases other <;> simp [UnpackedFloat.compare, rank, signum, Prod.Lex.toLex_lt_toLex]
  -- Only here two numbers of one sign meet, and the larger pair is the larger number or the smaller one.
  | finite sign mantissa exponent positive =>
    cases b with
    | notANumber => exact absurd rfl bNumber
    | infinity other =>
      cases sign <;> cases other <;>
        simp [UnpackedFloat.compare, rank, signum, Prod.Lex.toLex_lt_toLex]
    | zero other => cases sign <;> simp [UnpackedFloat.compare, rank, signum, Prod.Lex.toLex_lt_toLex]
    | finite other mantissa' exponent' positive' =>
      cases sign <;> cases other <;>
        simp [UnpackedFloat.compare, rank, signum, Prod.Lex.toLex_lt_toLex, then_eq_lt_iff,
          then_eq_gt_iff]

/-- What is no undefined value is a number. -/
private theorem number_of_isNaN {float : UnpackedFloat} (defined : float.isNaN = false) :
    float ≠ .notANumber := by
  rintro rfl
  cases defined

/-- Where a float of 64 bits stands. -/
def place (float : Float) : Int ×ₗ Int ×ₗ Int := rank float.toModel.unpack

/-- Floats of 64 bits that are numbers are ordered by their places. -/
theorem lt_iff_place {a b : Float} (aNumber : a.isNaN = false) (bNumber : b.isNaN = false) :
    a < b ↔ place a < place b := by
  -- Comparison of machine floats is comparison of what they unpack to.
  have compared := compare_eq_lt_iff (number_of_isNaN aNumber) (number_of_isNaN bNumber)
  rw [place, place, ← compared]
  -- The order of machine floats is the comparison, seen through a decision.
  show decide ((a.toModel.unpack.compare b.toModel.unpack == some .lt) = true) = true ↔ _
  rw [decide_eq_true_iff]
  exact beq_iff_eq

end FloatOrder

end Reticulum
