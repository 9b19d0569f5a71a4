import Mathlib.Data.List.DropRight

/-! The last readings of a log, as many as fit, of which old ones go as long as others are behind them. -/

namespace Reticulum.Window

variable {limit span now later reading : Nat} {readings log : List Nat}

/-- Readings older than a span go from the front, but for the last. -/
def prune (span now : Nat) : List Nat → List Nat
  | first :: second :: rest =>
    if now - first > span then prune span now (second :: rest) else first :: second :: rest
  | readings => readings

/-- What is left of a log when only so many readings are kept and old ones go. -/
def recent (limit span now : Nat) (log : List Nat) : List Nat := prune span now (log.rtake limit)

/-- A reading with another behind it goes if it is old. -/
theorem prune_cons (some : readings ≠ []) : prune span now (reading :: readings) =
    if now - reading > span then prune span now readings else reading :: readings := by
  cases readings with
  | nil => exact absurd rfl some
  | cons second rest => rfl

/-- A reading is left of some. -/
theorem prune_ne_nil (some : readings ≠ []) : prune span now readings ≠ [] := by
  induction readings with
  | nil => exact absurd rfl some
  | cons reading rest ih =>
    cases rest with
    | nil => exact some
    | cons second rest =>
      rw [prune_cons (List.cons_ne_nil _ _)]
      split
      · exact ih (List.cons_ne_nil _ _)
      · exact some

/-- What went before goes later. -/
theorem prune_prune (after : now ≤ later) (readings : List Nat) :
    prune span later (prune span now readings) = prune span later readings := by
  -- A reading that is old stays old.
  induction readings with
  | nil => rfl
  | cons reading rest ih =>
    cases rest with
    | nil => rfl
    | cons second rest =>
      rw [prune_cons (List.cons_ne_nil _ _)]
      split
      · rename_i old
        rw [ih, prune_cons (List.cons_ne_nil second rest), if_pos (by omega)]
      · rfl

/-- So many of the last readings are left of more, too. -/
theorem rtake_cons_of_le (enough : limit ≤ readings.length) :
    (reading :: readings).rtake limit = readings.rtake limit := by
  simp only [List.rtake, List.length_cons]
  rw [Nat.succ_sub enough, List.drop_succ_cons]

/-- Readings that went before make no difference to what is kept once another comes. -/
theorem prune_rtake_append (after : now ≤ later) (readings : List Nat) :
    prune span later ((prune span now readings ++ [reading]).rtake limit) =
      prune span later ((readings ++ [reading]).rtake limit) := by
  induction readings with
  | nil => rfl
  | cons first rest ih =>
    cases rest with
    | nil => rfl
    | cons second rest =>
      rw [prune_cons (List.cons_ne_nil _ _)]
      split
      · rename_i old
        have split : first :: second :: rest ++ [reading] = first :: (second :: rest ++ [reading]) := rfl
        rw [ih, split]
        -- The first reading does not fit, or it is too old to stay.
        rcases Nat.lt_or_ge (second :: rest ++ [reading]).length limit with fits | full
        · have left : (first :: (second :: rest ++ [reading])).rtake limit =
              first :: (second :: rest ++ [reading]) := by
            rw [List.rtake, Nat.sub_eq_zero_of_le (by rw [List.length_cons]; omega), List.drop_zero]
          have others : (second :: rest ++ [reading]).rtake limit = second :: rest ++ [reading] := by
            rw [List.rtake, Nat.sub_eq_zero_of_le (by omega), List.drop_zero]
          rw [left, others, prune_cons (by simp), if_pos (by omega)]
        · rw [rtake_cons_of_le full]
      · rfl

/-- No reading is added. -/
theorem prune_length_le (readings : List Nat) : (prune span now readings).length ≤ readings.length := by
  induction readings with
  | nil => exact le_rfl
  | cons reading rest ih =>
    cases rest with
    | nil => exact le_rfl
    | cons second rest =>
      rw [prune_cons (List.cons_ne_nil _ _)]
      split
      · exact ih.trans (Nat.le_succ _)
      · exact le_rfl

/-- No more are kept than fit. -/
theorem recent_length_le : (recent limit span now log).length ≤ limit := by
  refine (prune_length_le _).trans ?_
  rw [List.rtake, List.length_drop]
  omega

/-- Two readings are left only where the first of them is recent, and both were in the log. -/
theorem two_recent (two : 2 ≤ (recent limit span now log).length) :
    ∃ front first second back, log = front ++ first :: second :: back ∧ now ≤ first + span := by
  have kept : ∀ readings : List Nat, 2 ≤ (prune span now readings).length →
      ∃ front first second back, readings = front ++ first :: second :: back ∧ now ≤ first + span := by
    intro readings two
    induction readings with
    | nil => cases two
    | cons reading rest ih =>
      cases rest with
      | nil => exact absurd two (by simp [prune])
      | cons second rest =>
        rw [prune_cons (List.cons_ne_nil _ _)] at two
        split at two
        · -- The first reading went, and two are left of the others.
          obtain ⟨front, first, next, back, rfl', young⟩ := ih two
          exact ⟨reading :: front, first, next, back, by rw [rfl', List.cons_append], young⟩
        · exact ⟨[], reading, second, rest, rfl, by omega⟩
  obtain ⟨front, first, second, back, split, young⟩ := kept _ two
  refine ⟨log.take (log.length - limit) ++ front, first, second, back, ?_, young⟩
  rw [List.append_assoc, ← split, List.rtake, List.take_append_drop]

/-- A log that was looked at before is looked at as if it had not been. -/
theorem prune_recent (after : now ≤ later) :
    prune span later (recent limit span now log) = recent limit span later log :=
  prune_prune after _

/-- A reading more is kept as if the whole log had been. -/
theorem prune_recent_append (after : now ≤ later) :
    prune span later ((recent limit span now log ++ [reading]).rtake limit) =
      recent limit span later (log ++ [reading]) := by
  have kept := @prune_rtake_append limit span now later reading after (log.rtake limit)
  rw [recent, kept]
  -- Of the readings that do not fit, none would be among the last with one more.
  have same : (log.rtake limit ++ [reading]).rtake limit = (log ++ [reading]).rtake limit := by
    simp only [List.rtake, List.length_append, List.length_drop, List.length_singleton]
    rw [← List.drop_append_of_le_length (by omega), List.drop_drop]
    congr 1
    omega
  rw [same, recent]

end Reticulum.Window
