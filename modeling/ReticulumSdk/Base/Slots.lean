import Mathlib.Data.List.Basic

/-! Buffers filled out of order: the filled prefix, the number of filled slots, and overlays. -/

namespace Reticulum.Slots

variable {α : Type}

/-- The length of the longest prefix without an empty slot. -/
def filledPrefix : List (Option α) → Nat
  | some _ :: rest => filledPrefix rest + 1
  | _ => 0

/-- The number of slots that hold something. -/
def filledCount (slots : List (Option α)) : Nat := slots.countP Option.isSome

/-- A filled prefix is a run of filled slots from the first on. -/
theorem le_filledPrefix_iff {slots : List (Option α)} {n : Nat} :
    n ≤ filledPrefix slots ↔ ∀ i < n, ∃ item, slots[i]? = some (some item) := by
  -- The induction is over the slots, with the length that is asked for.
  induction slots generalizing n with
  | nil =>
    cases n with
    | zero => simp
    | succ n =>
      constructor
      · intro impossible
        exact absurd impossible (Nat.not_succ_le_zero n)
      · intro filled
        obtain ⟨item, found⟩ := filled n (Nat.lt_succ_self n)
        cases found
  | cons slot rest ih =>
    -- Only a filled first slot lets the prefix continue into the rest.
    cases n with
    | zero => simp
    | succ n =>
      cases slot with
      | none =>
        constructor
        · intro impossible
          exact absurd impossible (Nat.not_succ_le_zero n)
        · intro filled
          obtain ⟨item, found⟩ := filled 0 (Nat.succ_pos n)
          cases found
      | some item =>
        simp only [filledPrefix, Nat.add_le_add_iff_right, ih]
        -- Behind a filled slot every index moves down by one.
        constructor
        · intro filled i small
          cases i with
          | zero => exact ⟨item, rfl⟩
          | succ i => simpa using filled i (by omega)
        · intro filled i small
          simpa using filled (i + 1) (by omega)

/-- The prefix stays inside the buffer. -/
theorem filledPrefix_le_length (slots : List (Option α)) : filledPrefix slots ≤ slots.length := by
  by_contra beyond
  obtain ⟨item, found⟩ := le_filledPrefix_iff.mp (Nat.le_refl (filledPrefix slots)) slots.length
    (by omega)
  simp at found

/-- The slot after the prefix is not filled. -/
theorem getElem?_filledPrefix (slots : List (Option α)) (item : α) :
    slots[filledPrefix slots]? ≠ some (some item) := by
  -- Otherwise the prefix would be longer by one.
  intro found
  have longer : filledPrefix slots + 1 ≤ filledPrefix slots := by
    apply le_filledPrefix_iff.mpr
    intro i small
    rcases Nat.lt_succ_iff_lt_or_eq.mp small with inside | rfl
    · exact le_filledPrefix_iff.mp (Nat.le_refl _) i inside
    · exact ⟨item, found⟩
  omega

/-- Filling an empty slot keeps what every other slot holds. -/
theorem getElem?_set_of_filled {slots : List (Option α)} {i j : Nat} {item other : α}
    (empty : slots[i]? = some none) (filled : slots[j]? = some (some other)) :
    (slots.set i (some item))[j]? = some (some other) := by
  have apart : i ≠ j := by
    rintro rfl
    simp [filled] at empty
  rw [List.getElem?_set_ne apart, filled]

/-- Filling an empty slot never shortens the prefix. -/
theorem filledPrefix_le_set {slots : List (Option α)} {i : Nat} (item : α)
    (empty : slots[i]? = some none) :
    filledPrefix slots ≤ filledPrefix (slots.set i (some item)) := by
  apply le_filledPrefix_iff.mpr
  intro j small
  obtain ⟨other, filled⟩ := le_filledPrefix_iff.mp (Nat.le_refl _) j small
  exact ⟨other, getElem?_set_of_filled empty filled⟩

/-- Filling the slot right after the prefix extends the prefix over it. -/
theorem filledPrefix_lt_set {slots : List (Option α)} (item : α)
    (empty : slots[filledPrefix slots]? = some none) :
    filledPrefix slots < filledPrefix (slots.set (filledPrefix slots) (some item)) := by
  -- The slots before stay filled, and the one that ended the prefix is filled now.
  apply le_filledPrefix_iff.mpr
  intro j small
  rcases Nat.lt_succ_iff_lt_or_eq.mp small with inside | rfl
  · obtain ⟨other, filled⟩ := le_filledPrefix_iff.mp (Nat.le_refl _) j inside
    exact ⟨other, getElem?_set_of_filled empty filled⟩
  · obtain ⟨inside, -⟩ := List.getElem?_eq_some_iff.mp empty
    exact ⟨item, by simp [inside]⟩

/-- Filling an empty slot raises the count by one. -/
theorem filledCount_set {slots : List (Option α)} {i : Nat} (item : α)
    (empty : slots[i]? = some none) :
    filledCount (slots.set i (some item)) = filledCount slots + 1 := by
  obtain ⟨inside, empty⟩ := List.getElem?_eq_some_iff.mp empty
  simp [filledCount, List.countP_set, inside, empty]

/-- There are no more filled slots than slots, and one fewer while a slot is empty. -/
theorem filledCount_lt_length {slots : List (Option α)} {i : Nat} (empty : slots[i]? = some none) :
    filledCount slots < slots.length := by
  refine Nat.lt_of_le_of_ne (List.countP_le_length) fun all => ?_
  have filled := List.countP_eq_length.mp all none (List.mem_of_getElem? empty)
  simp at filled

/-- Once every slot is counted, every slot is filled. -/
theorem exists_of_filledCount {slots : List (Option α)} (full : slots.length ≤ filledCount slots)
    {i : Nat} (inside : i < slots.length) : ∃ item, slots[i]? = some (some item) := by
  cases found : slots[i] with
  | none =>
    have empty : slots[i]? = some none := by rw [List.getElem?_eq_getElem inside, found]
    exact absurd (filledCount_lt_length empty) (by omega)
  | some item => exact ⟨item, by rw [List.getElem?_eq_getElem inside, found]⟩

/-- Write items over a buffer from a position on, dropping what falls past its end. -/
def overlay (buffer : List α) (start : Nat) : List α → List α
  | [] => buffer
  | item :: rest => overlay (buffer.set start item) (start + 1) rest

@[simp] theorem overlay_length (buffer : List α) (start : Nat) (items : List α) :
    (overlay buffer start items).length = buffer.length := by
  induction items generalizing buffer start with
  | nil => rfl
  | cons item rest ih => simp [overlay, ih]

/-- An overlay reads as its items inside their range and as the buffer elsewhere. -/
theorem getElem?_overlay (buffer : List α) (start : Nat) (items : List α) (k : Nat) :
    (overlay buffer start items)[k]? =
      if start ≤ k ∧ k < start + items.length ∧ k < buffer.length then items[k - start]?
      else buffer[k]? := by
  induction items generalizing buffer start with
  | nil => simp only [overlay, List.length_nil]; rw [if_neg (by omega)]
  | cons item rest ih =>
    simp only [overlay, ih, List.length_set, List.length_cons, List.getElem?_set]
    -- The position is the one just written, a later one of the overlay, or outside it.
    by_cases here : start = k
    · subst here
      by_cases inside : start < buffer.length
      · rw [if_neg (by omega), if_pos rfl, if_pos inside, if_pos (by omega)]
        simp
      · rw [if_neg (by omega), if_pos rfl, if_neg inside, if_neg (by omega)]
        simp [List.getElem?_eq_none (Nat.le_of_not_lt inside)]
    · by_cases later : start + 1 ≤ k ∧ k < start + 1 + rest.length ∧ k < buffer.length
      · rw [if_pos later, if_pos (by omega)]
        obtain ⟨d, rfl⟩ : ∃ d, k = start + 1 + d := ⟨k - (start + 1), by omega⟩
        simp [show start + 1 + d - start = d + 1 by omega]
      · rw [if_neg later, if_neg here, if_neg (by omega)]

end Reticulum.Slots
