import Mathlib.Algebra.Group.Nat.Defs
import Mathlib.Data.List.Basic

/-! Machine arithmetic and indexing with panics as values, under either overflow policy. -/

namespace Reticulum

/-- The faults that stop a thread: a bad index, a failed unwrap, arithmetic, a size or time too large. -/
inductive Panic where
  | indexOutOfBounds
  | unwrapFailed
  | arithmeticOverflow
  | divisionByZero
  | capacityOverflow
  | durationOutOfRange
  deriving DecidableEq, Repr

/-- A computation that finishes with a value or stops with a panic. -/
abbrev Outcome (α : Type) := Except Panic α

/-- Whether the build checks integer overflow, as debug builds do, or wraps silently. -/
inductive Profile where
  | debug
  | release
  deriving DecidableEq, Repr

/-- One more than the largest `usize` of a 64-bit target. -/
def usizeRange : Nat := 2 ^ 64

/-- One more than the largest `isize`, which also bounds every allocation in bytes. -/
def isizeRange : Nat := 2 ^ 63

/-- One more than the largest `u16`. -/
def u16Range : Nat := 2 ^ 16

namespace Profile

/-- Fit a non-negative result into a width, panicking or wrapping as the build decides. -/
def fit (profile : Profile) (range value : Nat) : Outcome Nat :=
  if value < range then .ok value
  else match profile with
    | .debug => .error .arithmeticOverflow
    | .release => .ok (value % range)

/-- `a + b` at a given width. -/
def add (profile : Profile) (range a b : Nat) : Outcome Nat :=
  profile.fit range (a + b)

/-- `a * b` at a given width. -/
def mul (profile : Profile) (range a b : Nat) : Outcome Nat :=
  profile.fit range (a * b)

/-- `a - b` at a given width, where going below zero is the overflow. -/
def sub (profile : Profile) (range a b : Nat) : Outcome Nat :=
  if b ≤ a then .ok (a - b)
  else match profile with
    | .debug => .error .arithmeticOverflow
    | .release => .ok ((range + a - b) % range)

/-- `a + b` on `isize`. -/
def addSigned (profile : Profile) (a b : Int) : Outcome Int :=
  if -(isizeRange : Int) ≤ a + b ∧ a + b < isizeRange then .ok (a + b)
  else match profile with
    | .debug => .error .arithmeticOverflow
    | .release => .ok (Int.bmod (a + b) usizeRange)

/-- A result inside the width is exact in every build. -/
theorem fit_ok {range value : Nat} (profile : Profile) (small : value < range) :
    profile.fit range value = .ok value := by
  simp [fit, small]

/-- A checked result outside the width is a panic. -/
theorem fit_overflows {range value : Nat} (large : range ≤ value) :
    debug.fit range value = .error .arithmeticOverflow := by
  simp [fit, Nat.not_lt.mpr large]

/-- An unchecked result is taken modulo the width. -/
theorem fit_wraps (range value : Nat) : release.fit range value = .ok (value % range) := by
  unfold fit
  split
  · rename_i small
    rw [Nat.mod_eq_of_lt small]
  · rfl

/-- A sum inside the width is exact in every build. -/
theorem add_ok {range a b : Nat} (profile : Profile) (small : a + b < range) :
    profile.add range a b = .ok (a + b) :=
  fit_ok profile small

/-- A product inside the width is exact in every build. -/
theorem mul_ok {range a b : Nat} (profile : Profile) (small : a * b < range) :
    profile.mul range a b = .ok (a * b) :=
  fit_ok profile small

/-- A difference that stays non-negative is exact in every build. -/
theorem sub_ok {range a b : Nat} (profile : Profile) (ordered : b ≤ a) :
    profile.sub range a b = .ok (a - b) := by
  simp [sub, ordered]

/-- A signed sum inside the range is exact in every build. -/
theorem addSigned_ok {a b : Int} (profile : Profile) (low : -(isizeRange : Int) ≤ a + b)
    (high : a + b < isizeRange) : profile.addSigned a b = .ok (a + b) := by
  simp [addSigned, low, high]

end Profile

/-- `Vec::with_capacity` and `vec![..; count]`, which panic past the largest allocation. -/
def allocate (count width : Nat) : Outcome Unit :=
  if count * width < isizeRange then .ok () else .error .capacityOverflow

/-- An allocation that succeeded stayed below the limit. -/
theorem lt_of_allocate {count width : Nat} {done : Unit}
    (allocated : allocate count width = .ok done) : count * width < isizeRange := by
  by_contra large
  simp [allocate, large] at allocated

/-- `items[i]`, which panics past the end. -/
def index {α : Type} (items : List α) (i : Nat) : Outcome α :=
  match items[i]? with
  | some item => .ok item
  | none => .error .indexOutOfBounds

/-- `items[start..stop]`, which panics when the bounds are crossed or past the end. -/
def slice {α : Type} (items : List α) (start stop : Nat) : Outcome (List α) :=
  if start ≤ stop ∧ stop ≤ items.length then .ok ((items.take stop).drop start)
  else .error .indexOutOfBounds

/-- An index inside the list reads the element there. -/
theorem index_ok {α : Type} {items : List α} {i : Nat} {item : α}
    (found : items[i]? = some item) : index items i = .ok item := by
  simp [index, found]

/-- Bounds in order and inside the list make a slice safe. -/
theorem slice_ok {α : Type} {items : List α} {start stop : Nat} (ordered : start ≤ stop)
    (inside : stop ≤ items.length) : slice items start stop = .ok ((items.take stop).drop start) := by
  simp [slice, ordered, inside]

/-- A sequence of two computations finishes exactly when both do. -/
theorem bind_eq_ok {ε α β : Type} {first : Except ε α} {next : α → Except ε β} {result : β} :
    (first >>= next) = .ok result ↔ ∃ value, first = .ok value ∧ next value = .ok result := by
  cases first <;> simp [Bind.bind, Except.bind]

/-- Whether a computation finishes with a value that passes a test. -/
def passes {ε α : Type} (outcome : Except ε α) (test : α → Bool) : Bool :=
  match outcome with
  | .ok value => test value
  | .error _ => false

/-- A passed test names the value it was passed by. -/
theorem exists_of_passes {ε α : Type} {outcome : Except ε α} {test : α → Bool}
    (passed : passes outcome test = true) : ∃ value, outcome = .ok value ∧ test value = true := by
  cases outcome with
  | ok value => exact ⟨value, rfl, passed⟩
  | error fault => cases passed

/-- A computation that finishes with a value the test accepts passes it. -/
theorem passes_of_eq {ε α : Type} {outcome : Except ε α} {test : α → Bool} {value : α}
    (finished : outcome = .ok value) (accepted : test value = true) : passes outcome test = true := by
  rw [finished]
  exact accepted

/-- A mapped computation finishes exactly when it does, with the mapped result. -/
theorem map_eq_ok {ε α β : Type} {first : Except ε α} {f : α → β} {result : β} :
    (f <$> first) = .ok result ↔ ∃ value, first = .ok value ∧ f value = result := by
  cases first <;> simp [Functor.map, Except.map]

/-- A mapped computation stops exactly when it does. -/
theorem map_eq_error {ε α β : Type} {first : Except ε α} {f : α → β} {fault : ε} :
    (f <$> first) = .error fault ↔ first = .error fault := by
  cases first <;> simp [Functor.map, Except.map]

end Reticulum
