import ReticulumSdk.Resource.Timeout

/-! Every window adjustment keeps the window between its bounds and subtracts safely. -/

namespace Reticulum

open Resource

/-- The window lies between its bounds, which lie between two and seventy-five. -/
structure FlowControl.Bounded (flow : FlowControl) : Prop where
  low : WINDOW_MIN ≤ flow.windowMin
  floor : flow.windowMin ≤ flow.window
  ceiling : flow.window ≤ flow.windowMax
  high : flow.windowMax ≤ WINDOW_MAX
  flexibility : flow.windowFlexibility = WINDOW_FLEXIBILITY

namespace FlowControl

/-- A transfer starts inside the bounds. -/
theorem initial_bounded : FlowControl.initial.Bounded := by
  constructor <;> decide

namespace Bounded

variable {flow : FlowControl}

/-- The bounds as plain numbers. -/
theorem bounds (bounded : flow.Bounded) : 2 ≤ flow.windowMin ∧ flow.windowMin ≤ flow.window ∧
    flow.window ≤ flow.windowMax ∧ flow.windowMax ≤ 75 :=
  ⟨bounded.low, bounded.floor, bounded.ceiling, bounded.high⟩

/-- Counting a fast round never faults and can only raise the limit. -/
theorem countFastRound (bounded : flow.Bounded) (profile : Profile) (rate : Float) :
    ∃ promoted, flow.countFastRound profile rate = .ok promoted ∧ promoted.Bounded := by
  obtain ⟨low, floor, ceiling, high⟩ := bounded.bounds
  unfold FlowControl.countFastRound
  split
  · rename_i counted
    -- The counter stops at its threshold, so its increment stays tiny.
    have small : flow.fastRateRounds < 4 := counted.2
    have fits : flow.fastRateRounds + 1 < usizeRange := by unfold usizeRange; omega
    rw [Profile.add_ok profile fits]
    refine ⟨_, rfl, bounded.low, bounded.floor, ?_, ?_, bounded.flexibility⟩
    · simp only
      split
      · exact Nat.le_trans ceiling high
      · exact ceiling
    · simp only
      split
      · exact Nat.le_refl _
      · exact high
  · exact ⟨flow, rfl, bounded⟩

/-- Growing a window below its limit never faults. -/
theorem grow (bounded : flow.Bounded) (profile : Profile) (room : flow.window < flow.windowMax) :
    ∃ grown, flow.grow profile = .ok grown ∧ grown.Bounded := by
  -- The window is below its limit, which is far from overflowing, and the lower limit is no higher.
  obtain ⟨low, floor, ceiling, high⟩ := bounded.bounds
  have flexibility : flow.windowFlexibility = 4 := bounded.flexibility
  have fits : flow.window + 1 < usizeRange := by unfold usizeRange; omega
  have fitsMin : flow.windowMin + 1 < usizeRange := by unfold usizeRange; omega
  have ordered : flow.windowMin ≤ flow.window + 1 := by omega
  have slack : 1 ≤ flow.windowFlexibility := by omega
  unfold FlowControl.grow
  simp only [Profile.add_ok profile fits, Profile.sub_ok profile ordered,
    Profile.sub_ok profile slack, Bind.bind, Except.bind]
  split
  · rw [Profile.add_ok profile fitsMin]
    refine ⟨_, rfl, ?_, ?_, ?_, high, bounded.flexibility⟩ <;> simp only [WINDOW_MIN] <;> omega
  · refine ⟨_, rfl, bounded.low, ?_, ?_, high, bounded.flexibility⟩ <;> simp only <;> omega

/-- The growth step of `receive_part` never faults. -/
theorem growWhenIdle (bounded : flow.Bounded) (profile : Profile) (outstandingParts : Nat) :
    ∃ grown, flow.growWhenIdle profile outstandingParts = .ok grown ∧ grown.Bounded := by
  unfold FlowControl.growWhenIdle
  split
  · rename_i idle
    exact bounded.grow profile idle.2
  · exact ⟨flow, rfl, bounded⟩

/-- Shrinking never faults and takes one from any window above its floor. -/
theorem shrink (bounded : flow.Bounded) (profile : Profile) :
    ∃ shrunk, flow.shrink profile = .ok shrunk ∧ shrunk.Bounded ∧
      shrunk.window = if flow.window > flow.windowMin then flow.window - 1 else flow.window := by
  obtain ⟨low, floor, ceiling, high⟩ := bounded.bounds
  have flexibility : flow.windowFlexibility = 4 := bounded.flexibility
  unfold FlowControl.shrink
  split
  · rename_i above
    -- The limit lies strictly above the floor too, and loses one or two.
    have raised : flow.windowMax > flow.windowMin := by omega
    have one : 1 ≤ flow.window := by omega
    have oneMax : 1 ≤ flow.windowMax := by omega
    have ordered : flow.window - 1 ≤ flow.windowMax - 1 := by omega
    have slack : 1 ≤ flow.windowFlexibility := by omega
    simp only [Profile.sub_ok profile one, Profile.sub_ok profile oneMax,
      Profile.sub_ok profile ordered, Profile.sub_ok profile slack, raised, if_true, Bind.bind,
      Except.bind]
    split
    · rename_i wide
      have oneMore : 1 ≤ flow.windowMax - 1 := by omega
      rw [Profile.sub_ok profile oneMore]
      refine ⟨_, rfl, ⟨bounded.low, ?_, ?_, ?_, bounded.flexibility⟩, rfl⟩ <;>
        simp only [WINDOW_MAX, WINDOW_MAX_FAST] <;> omega
    · refine ⟨_, rfl, ⟨bounded.low, ?_, ?_, ?_, bounded.flexibility⟩, rfl⟩ <;>
        simp only [WINDOW_MAX, WINDOW_MAX_FAST] <;> omega
  · exact ⟨flow, rfl, bounded, rfl⟩

end Bounded

end FlowControl

end Reticulum
