import Mathlib.Data.List.MinMax

/-! Loops that keep the best element so far, and what they have found at their end. -/

namespace Reticulum.Selection

variable {α β γ : Type} [LinearOrder β] (key : α → γ) (value : α → β)

/-- One round of a loop: an element that is strictly better than the best so far takes its place. -/
def improve (best : Option γ × β) (element : α) : Option γ × β :=
  if value element < best.2 then (some (key element), value element) else best

/-- The loop finds the first of the least elements below its bound, or nothing and keeps the bound. -/
theorem foldl_improve (bound : β) (elements : List α) :
    elements.foldl (improve key value) (none, bound) =
      match (elements.filter fun element => value element < bound).argmin value with
      | none => (none, bound)
      | some least => (some (key least), value least) := by
  -- From the right, where the loop visits an element after all others.
  induction elements using List.reverseRecOn with
  | nil => rfl
  | append_singleton elements last ih =>
    rw [List.foldl_append, ih, List.foldl_cons, List.foldl_nil, List.filter_append]
    by_cases below : value last < bound
    · -- A last element below the bound is compared with the best one before it.
      rw [List.filter_cons_of_pos (by simpa using below), List.filter_nil, List.argmin_concat]
      cases (elements.filter fun element => value element < bound).argmin value with
      | none => simp [improve, below]
      | some least =>
        by_cases better : value last < value least
        · simp [improve, better]
        · simp [improve, better]
    · -- Any other is passed over, since the best so far is no worse than the bound.
      rw [List.filter_cons_of_neg (by simpa using below), List.filter_nil, List.append_nil]
      cases chosen : (elements.filter fun element => value element < bound).argmin value with
      | none => simp [improve, below]
      | some least =>
        have inside : value least < bound := by
          simpa using (List.mem_filter.mp (List.argmin_mem chosen)).2
        have worse : ¬ value last < value least := fun better => below (better.trans inside)
        simp [improve, worse]

variable {bound : β} {elements : List α}

/-- What the loop found is the key of an element below the bound that none is less than. -/
theorem exists_of_foldl_improve {found : γ}
    (ended : (elements.foldl (improve key value) (none, bound)).1 = some found) :
    ∃ least ∈ elements, key least = found ∧ value least < bound ∧
      ∀ element ∈ elements, value least ≤ value element := by
  rw [foldl_improve] at ended
  cases chosen : (elements.filter fun element => value element < bound).argmin value with
  | none =>
    rw [chosen] at ended
    cases ended
  | some least =>
    rw [chosen] at ended
    obtain ⟨member, below⟩ := List.mem_filter.mp (List.argmin_mem chosen)
    have inside : value least < bound := by simpa using below
    refine ⟨least, member, Option.some.inj ended, inside, fun element here => ?_⟩
    -- An element that is not below the bound is not less than one that is.
    rcases lt_or_ge (value element) bound with low | high
    · exact List.le_of_mem_argmin (List.mem_filter.mpr ⟨here, by simpa using low⟩) chosen
    · exact (inside.trans_le high).le

/-- The loop finds nothing exactly when no element is below the bound. -/
theorem foldl_improve_eq_none :
    (elements.foldl (improve key value) (none, bound)).1 = none ↔
      ∀ element ∈ elements, bound ≤ value element := by
  rw [foldl_improve]
  cases chosen : (elements.filter fun element => value element < bound).argmin value with
  | none =>
    refine iff_of_true rfl fun element member => ?_
    have empty := List.filter_eq_nil_iff.mp (List.argmin_eq_none.mp chosen) element member
    simpa using empty
  | some least =>
    -- What was found is itself below the bound.
    obtain ⟨member, below⟩ := List.mem_filter.mp (List.argmin_mem chosen)
    refine iff_of_false (by simp) fun none => ?_
    exact absurd (none least member) (not_le.mpr (by simpa using below))

/-- A least element that is selected is less than every element before it. -/
theorem exists_split_of_argmin {least : α} (chosen : elements.argmin value = some least) :
    ∃ before after, elements = before ++ least :: after ∧
      ∀ element ∈ before, value least < value element := by
  -- From the right, where the last element is selected only if it is less than the least before it.
  induction elements using List.reverseRecOn generalizing least with
  | nil => cases chosen
  | append_singleton elements last ih =>
    rw [List.argmin_concat] at chosen
    cases best : elements.argmin value with
    | none =>
      obtain rfl := List.argmin_eq_none.mp best
      obtain rfl : last = least := by simpa [best] using chosen
      exact ⟨[], [], rfl, by simp⟩
    | some front =>
      rw [best] at chosen
      by_cases better : value last < value front
      · obtain rfl : last = least := by simpa [better] using chosen
        exact ⟨elements, [], rfl, fun element member =>
          better.trans_le (List.le_of_mem_argmin member best)⟩
      · obtain rfl : front = least := by simpa [better] using chosen
        -- The last element is not selected, so it stands behind the least.
        obtain ⟨before, after, rfl, less⟩ := ih best
        exact ⟨before, after ++ [last], by simp, less⟩

end Reticulum.Selection
