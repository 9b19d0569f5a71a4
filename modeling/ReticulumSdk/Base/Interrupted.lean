import Mathlib.Data.List.ReduceOption
import ReticulumSdk.Base.Feeding

/-! Decoders that are reset between items: a reset that finds nothing does nothing, any other costs a value. -/

namespace Reticulum

variable {σ α β : Type} {push : σ → α → Option β × σ} {reset : σ → σ} {state : σ}

/-- Feed a row of items with resets between them: what a decoder gives out, and the state it is left in. -/
def feedReset (push : σ → α → Option β × σ) (reset : σ → σ) : σ → List (Option α) → List β × σ
  | state, [] => ([], state)
  | state, some item :: events =>
    let (given, after) := push state item
    let (rest, final) := feedReset push reset after events
    (given.toList ++ rest, final)
  | state, none :: events => feedReset push reset (reset state) events

/-- Every reset falls where the items before it leave the decoder idle. -/
def IdleResets (push : σ → α → Option β × σ) (idle : σ → Prop) : σ → List (Option α) → Prop
  | _, [] => True
  | state, some item :: events => IdleResets push idle (push state item).2 events
  | state, none :: events => idle state ∧ IdleResets push idle state events

instance IdleResets.decidable {idle : σ → Prop} [DecidablePred idle] :
    (state : σ) → (events : List (Option α)) → Decidable (IdleResets push idle state events)
  | _, [] => .isTrue trivial
  | state, some item :: events => decidable (push state item).2 events
  | state, none :: events =>
    have : Decidable (IdleResets push idle state events) := decidable state events
    inferInstanceAs (Decidable (_ ∧ _))

/-- Resets of an idle decoder might as well not come. -/
theorem IdleResets.feedReset_eq {idle : σ → Prop} (still : ∀ state, idle state → reset state = state)
    {events : List (Option α)} (quiet : IdleResets push idle state events) :
    feedReset push reset state events = feedAll push state events.reduceOption := by
  -- The induction is over the events; a reset leaves the state for the next one.
  induction events generalizing state with
  | nil => rfl
  | cons event events ih =>
    cases event with
    | none =>
      -- A reset of a decoder that holds nothing is passed over.
      rw [feedReset, still state quiet.1, List.reduceOption_cons_of_none]
      exact ih quiet.2
    | some item =>
      have rest := ih quiet
      simp only [feedReset, rest, List.reduceOption_cons_of_some, FeedAll.cons]

/--
A decoder of values between delimiters: in a sound state it gives a value out and leaves it only with a
delimiter, enters it only with a delimiter, and a reset that does anything throws it out of a value.
-/
structure Delimited (push : σ → α → Option β × σ) (reset : σ → σ) (idle sound : σ → Prop)
    (inside : σ → Bool) (delimiter : α → Bool) : Prop where
  pushed : ∀ state item, sound state → sound (push state item).2
  cleared : ∀ state, sound state → sound (reset state)
  pays : ∀ state item, sound state →
    2 * (push state item).1.toList.length + (inside (push state item).2).toNat ≤
      (inside state).toNat + (delimiter item).toNat
  still : ∀ state, idle state → reset state = state
  loses : ∀ state, sound state → ¬ idle state → inside state = true ∧ inside (reset state) = false

namespace Delimited

variable {idle sound : σ → Prop} {inside : σ → Bool} {delimiter : α → Bool} {events : List (Option α)}

/-- Every value takes two delimiters, one of which may have come before. -/
theorem given_le (laws : Delimited push reset idle sound inside delimiter) (begins : sound state) :
    2 * (feedReset push reset state events).1.length ≤
      (inside state).toNat + events.reduceOption.countP delimiter := by
  -- What was paid for and not given out is whether the decoder is inside a value.
  induction events generalizing state with
  | nil => exact Nat.zero_le _
  | cons event events ih =>
    cases event with
    | none =>
      have rest := ih (laws.cleared state begins)
      rw [feedReset, List.reduceOption_cons_of_none]
      by_cases resting : idle state
      · rw [laws.still state resting] at rest ⊢
        exact rest
      · -- A reset of any other leaves the value, and what was paid for it is lost.
        have lost := (laws.loses state begins resting).2
        rw [lost] at rest
        simp only [Bool.toNat_false] at rest
        omega
    | some item =>
      have rest := ih (laws.pushed state item begins)
      -- An item adds as many values as its delimiter pays for.
      have paid := laws.pays state item begins
      rw [List.reduceOption_cons_of_some, List.countP_cons, feedReset]
      simp only [List.length_append]
      cases counted : delimiter item <;> simp only [counted, Bool.toNat_true, Bool.toNat_false] at paid <;>
        simp <;> omega

/-- A reset that finds something costs a delimiter. -/
theorem given_lt (laws : Delimited push reset idle sound inside delimiter) (begins : sound state)
    (disturbed : ¬ IdleResets push idle state events) :
    2 * (feedReset push reset state events).1.length + 1 ≤
      (inside state).toNat + events.reduceOption.countP delimiter := by
  -- The first such reset finds the decoder inside a value and leaves it outside.
  induction events generalizing state with
  | nil => exact absurd trivial disturbed
  | cons event events ih =>
    cases event with
    | none =>
      rw [feedReset, List.reduceOption_cons_of_none]
      by_cases resting : idle state
      · rw [laws.still state resting]
        exact ih begins fun quiet => disturbed ⟨resting, quiet⟩
      · -- This is the reset that loses a value, and the bound holds behind it.
        obtain ⟨entered, lost⟩ := laws.loses state begins resting
        have rest := @given_le _ _ _ _ _ _ _ _ _ _ events laws (laws.cleared state begins)
        rw [lost] at rest
        rw [entered]
        simp only [Bool.toNat_false, Bool.toNat_true] at rest ⊢
        omega
    | some item =>
      -- The reset comes later, behind an item that is paid for.
      have rest := ih (laws.pushed state item begins) disturbed
      have paid := laws.pays state item begins
      rw [List.reduceOption_cons_of_some, List.countP_cons, feedReset]
      simp only [List.length_append]
      cases counted : delimiter item <;> simp only [counted, Bool.toNat_true, Bool.toNat_false] at paid <;>
        simp <;> omega

/-- A row of values has two delimiters for each. -/
private theorem countP_row {frame : β → List α} {values : List β}
    (framed : ∀ value ∈ values, (frame value).countP delimiter = 2) :
    (values.flatMap frame).countP delimiter = 2 * values.length := by
  -- Each frame carries its own two delimiters, so the count is summed value by value.
  induction values with
  | nil => rfl
  | cons value values ih =>
    have first := framed value List.mem_cons_self
    have rest := ih fun other member => framed other (List.mem_cons_of_mem _ member)
    rw [List.flatMap_cons, List.countP_append, first, rest, List.length_cons]
    omega

/-- Of a row of values that are all seen, all come out exactly when every reset finds the decoder idle. -/
theorem complete_iff {γ : Type} {seen : β → Option γ} {frame : β → List α} {values : List β}
    (laws : Delimited push reset idle sound inside delimiter) (begins : sound state)
    (outside : inside state = false)
    (framed : ∀ value ∈ values, (frame value).countP delimiter = 2)
    (taken : (feedAll push state (values.flatMap frame)).1 = values)
    (shown : ∀ value ∈ values, (seen value).isSome = true)
    (row : events.reduceOption = values.flatMap frame) :
    (feedReset push reset state events).1.filterMap seen = values.filterMap seen ↔
      IdleResets push idle state events := by
  constructor
  · intro complete
    by_contra disturbed
    -- One value fewer would come out than there are, for want of a delimiter.
    have fewer := given_lt laws begins disturbed
    rw [row, countP_row framed, outside] at fewer
    have all : (values.filterMap seen).length = values.length := List.filterMap_length_eq_length.mpr shown
    have bounded := List.length_filterMap_le seen (feedReset push reset state events).1
    rw [complete, all] at bounded
    simp only [Bool.toNat_false] at fewer
    omega
  · intro quiet
    -- Without a loss the decoder gives out what it gives without resets.
    rw [quiet.feedReset_eq laws.still, row, taken]

end Delimited

end Reticulum
