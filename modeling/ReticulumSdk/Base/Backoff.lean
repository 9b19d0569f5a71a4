import Mathlib.Algebra.Group.Nat.Defs
import Mathlib.Data.List.Chain
import Mathlib.Tactic.Ring

/-! Events that wait for each other, each twice as long as the one before it: how many there can be in a time. -/

namespace Reticulum.Backoff

/-- One event after another: it waited for the backoff of that one, and has twice its backoff or came late. -/
structure Follows (most : Nat) (first second : Nat × Nat) : Prop where
  waits : first.1 + first.2 ≤ second.1
  grows : first.1 + most ≤ second.1 ∨ min most (2 * first.2) ≤ second.2

/-- The time of the last of some events. -/
def lastTime (first : Nat × Nat) (rest : List (Nat × Nat)) : Nat := (rest.getLastD first).1

/-- The backoffs after one that was doubled add up to as much as they would behind that one, up to the longest. -/
theorem doubled_le {most backoff doubled power : Nat} (positive : 1 ≤ power)
    (grown : min most (2 * backoff) ≤ doubled) :
    min most ((2 * power - 1) * backoff) ≤ backoff + min most ((power - 1) * doubled) := by
  obtain ⟨count, rfl⟩ := Nat.exists_eq_add_of_le' positive
  rw [Nat.add_sub_cancel]
  have sum : (2 * (count + 1) - 1) * backoff = backoff + count * (2 * backoff) := by
    have odd : 2 * (count + 1) - 1 = 1 + 2 * count := by omega
    rw [odd]
    ring
  rw [sum]
  rcases Nat.le_total most (2 * backoff) with long | short
  · -- One backoff behind it is the longest already.
    rw [Nat.min_eq_left long] at grown
    cases count with
    | zero => simp
    | succ count =>
      have enough : most ≤ (count + 1) * doubled := grown.trans (Nat.le_mul_of_pos_left _ (Nat.succ_pos _))
      have all := Nat.min_eq_left enough
      have part := Nat.min_le_left most (backoff + (count + 1) * (2 * backoff))
      omega
  · rw [Nat.min_eq_right short] at grown
    have more : count * (2 * backoff) ≤ count * doubled := Nat.mul_le_mul_left count grown
    omega

/-- Of events in a row, the last comes as late as if every backoff had doubled, up to the longest. -/
theorem spaced {most : Nat} {first : Nat × Nat} {rest : List (Nat × Nat)}
    (row : List.IsChain (Follows most) (first :: rest)) :
    first.1 + min most ((2 ^ rest.length - 1) * first.2) ≤ lastTime first rest := by
  -- The induction is over the events behind the first.
  induction rest generalizing first with
  | nil => simp [lastTime]
  | cons second rest ih =>
    obtain ⟨⟨waits, grows⟩, row⟩ := List.isChain_cons_cons.mp row
    have later := ih row
    have last : lastTime first (second :: rest) = lastTime second rest := by
      unfold lastTime
      rw [List.getLastD_cons]
    rw [last, List.length_cons, Nat.pow_succ, Nat.mul_comm _ 2]
    rcases grows with late | grown
    · -- An event that came late is late enough by itself.
      have part := Nat.min_le_left most ((2 * 2 ^ rest.length - 1) * first.2)
      omega
    · have both := doubled_le (show 1 ≤ 2 ^ rest.length from Nat.one_le_two_pow) grown
      omega

end Reticulum.Backoff
