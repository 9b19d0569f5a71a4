import Mathlib.Data.List.DropRight

/-! A bounded log of stamped items: each is noted once, at the end, and the first are forgotten. -/

namespace Reticulum.History

variable {α : Type} [DecidableEq α] (time : α → Nat)

/-- An item is noted at the end, unless it is there. -/
def note (items : List α) (item : α) : List α := if item ∈ items then items else items ++ [item]

/-- The latest time of a log, or zero. -/
def latest (items : List α) : Nat := (items.map time).max?.getD 0

/-- The times of a log never go back. -/
def Ordered (items : List α) : Prop := items.Pairwise fun first second => time first ≤ time second

variable {time} {items other : List α} {item : α} {limit : Nat}

omit [DecidableEq α] in
/-- A log is no later than a bound exactly when its items are. -/
theorem latest_le_iff {bound : Nat} :
    latest time items ≤ bound ↔ ∀ item ∈ items, time item ≤ bound := by
  -- The time is the greatest of all, and zero only where there is none.
  unfold latest
  cases greatest : (items.map time).max? with
  | none =>
    -- Without a greatest time there is no item to bound.
    obtain rfl : items = [] := by simpa using greatest
    simp
  | some most =>
    rw [Option.getD_some, List.max?_le_iff greatest]
    simp

omit [DecidableEq α] in
/-- No item is later than its log. -/
theorem le_latest (member : item ∈ items) : time item ≤ latest time items :=
  latest_le_iff.mp le_rfl item member

omit [DecidableEq α] in
/-- A log with more items is no earlier. -/
theorem latest_mono (within : items ⊆ other) : latest time items ≤ latest time other :=
  -- Each item of the smaller log is an item of the larger.
  latest_le_iff.mpr fun _ member => le_latest (within member)

/-- Nothing is lost by noting. -/
theorem subset_note : items ⊆ note items item := by
  unfold note
  split
  · -- What is there is not noted again.
    exact fun _ member => member
  · exact List.subset_append_left _ _

/-- Noting keeps the items distinct. -/
theorem note_nodup (distinct : items.Nodup) : (note items item).Nodup := by
  unfold note
  split
  · -- What is there is not noted again.
    exact distinct
  · rename_i absent
    -- What is appended was absent, so it repeats nothing.
    refine List.nodup_append.mpr ⟨distinct, List.pairwise_singleton _ _, fun one member two last => ?_⟩
    rintro rfl
    exact absent (List.mem_singleton.mp last ▸ member)

/-- Noting what is there, or what is no earlier than the log, keeps the times in order. -/
theorem note_ordered (ordered : Ordered time items)
    (later : item ∉ items → latest time items ≤ time item) : Ordered time (note items item) := by
  unfold note
  split
  · exact ordered
  · rename_i absent
    -- What is appended is no earlier than the latest, hence than any.
    refine List.pairwise_append.mpr ⟨ordered, List.pairwise_singleton _ _, fun first member => ?_⟩
    intro second last
    obtain rfl := List.mem_singleton.mp last
    exact (le_latest member).trans (later absent)

omit [DecidableEq α] in
/-- What is kept of a log stands in its order. -/
theorem rtake_sublist : (items.rtake limit).Sublist items := List.drop_sublist _ _

omit [DecidableEq α] in
/-- No more items are kept than fit. -/
theorem rtake_length : (items.rtake limit).length ≤ limit := by
  -- The first items are dropped, as many as are too many.
  rw [List.rtake, List.length_drop]
  omega

omit [DecidableEq α] in
/-- The last item is the last to be forgotten. -/
theorem mem_rtake_of_last (room : 0 < limit) (last : items.getLast? = some item) :
    item ∈ items.rtake limit := by
  -- The log is not empty, so what is dropped ends before its last item.
  have filled : 0 < items.length := List.length_pos_iff.mpr fun empty => by simp [empty] at last
  have kept : (items.rtake limit).getLast? = some item := by
    rw [List.rtake, List.getLast?_drop, if_neg (by omega), last]
  exact List.mem_of_getLast? kept

omit [DecidableEq α] in
/-- Where the times are in order, forgetting the first items does not change the latest. -/
theorem latest_rtake (ordered : Ordered time items) (room : 0 < limit) :
    latest time (items.rtake limit) = latest time items := by
  apply Nat.le_antisymm (latest_mono rtake_sublist.subset)
  apply latest_le_iff.mpr
  intro item member
  -- The last item is kept, and none is later than it.
  obtain ⟨front, last, rfl⟩ := List.eq_nil_or_concat items |>.resolve_left (List.ne_nil_of_mem member)
  rw [List.concat_eq_append] at *
  have kept : last ∈ (front ++ [last]).rtake limit := mem_rtake_of_last room (by simp)
  rcases List.mem_append.mp member with early | late
  · exact ((List.pairwise_append.mp ordered).2.2 item early last (by simp)).trans (le_latest kept)
  · obtain rfl := List.mem_singleton.mp late
    exact le_latest kept

/-- What was just noted is not forgotten in a log that was within its limit. -/
theorem mem_rtake_note (room : 0 < limit) (within : item ∈ items → items.length ≤ limit) :
    item ∈ (note items item).rtake limit := by
  unfold note
  split
  · rename_i member
    -- Nothing was noted, so the log still fits and nothing is forgotten.
    rw [List.rtake, Nat.sub_eq_zero_of_le (within member)]
    exact member
  · -- Otherwise the item is the last one.
    exact mem_rtake_of_last room (by simp)

end Reticulum.History
