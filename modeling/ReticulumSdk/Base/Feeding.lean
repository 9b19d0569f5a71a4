import Mathlib.Data.List.Basic

/-! Decoders that are fed item by item and give something out now and then, and how they come back in step. -/

namespace Reticulum

variable {σ α β γ : Type} {push : σ → α → Option β × σ} {state : σ}

/-- Feed a row of items: what a decoder gives out for them, and the state it is left in. -/
def feedAll (push : σ → α → Option β × σ) : σ → List α → List β × σ
  | state, [] => ([], state)
  | state, item :: items =>
    let (given, after) := push state item
    let (rest, final) := feedAll push after items
    (given.toList ++ rest, final)

namespace FeedAll

@[simp] theorem nil : feedAll push state [] = ([], state) := rfl

/-- The first item is given to the decoder, the rest to what it becomes. -/
@[simp] theorem cons (item : α) (items : List α) : feedAll push state (item :: items) =
    ((push state item).1.toList ++ (feedAll push (push state item).2 items).1,
      (feedAll push (push state item).2 items).2) := rfl

/-- Feeding two rows is feeding one behind the other. -/
@[simp] theorem append (front back : List α) : feedAll push state (front ++ back) =
    ((feedAll push state front).1 ++ (feedAll push (feedAll push state front).2 back).1,
      (feedAll push (feedAll push state front).2 back).2) := by
  -- The state after the front is the one the back begins with.
  induction front generalizing state with
  | nil => rfl
  | cons item front ih => simp [ih]

/-- Two decoders whose states stay related give out the same, as far as the first's values are seen. -/
theorem simulates {τ δ : Type} {push' : τ → α → Option γ × τ} {related : σ → τ → Prop}
    {seen : β → Option δ} {read : γ → δ}
    (step : ∀ state state' item, related state state' →
      (push state item).1.bind seen = (push' state' item).1.map read ∧
        related (push state item).2 (push' state' item).2)
    {state' : τ} (begins : related state state') (items : List α) :
    (feedAll push state items).1.filterMap seen = (feedAll push' state' items).1.map read := by
  -- The induction is over the items: after each the states are related again.
  induction items generalizing state state' with
  | nil => rfl
  | cons item items ih =>
    obtain ⟨same, still⟩ := step state state' item begins
    have given : (push state item).1.toList.filterMap seen = (push' state' item).1.toList.map read := by
      rw [← Option.toList_map, ← same]
      cases (push state item).1 with
      | none => rfl
      | some value => cases found : seen value <;> simp [found]
    rw [cons, cons, List.filterMap_append, List.map_append, given, ih still]

/-- A frame that a decoder in step takes whole, after which it is in step. -/
def Taken (push : σ → α → Option β × σ) (inStep : σ → Prop) (frame : List α) (value : β) : Prop :=
  ∀ state, inStep state → (feedAll push state frame).1 = [value] ∧ inStep (feedAll push state frame).2

/-- A frame that any decoder takes whole or misses, giving out one value more at most, and is in step after. -/
def Resynchronises (push : σ → α → Option β × σ) (inStep : σ → Prop) (frame : List α) (value : β) : Prop :=
  ∀ state, inStep (feedAll push state frame).2 ∧ ∃ spurious kept,
    (feedAll push state frame).1 = spurious ++ kept ∧ spurious.length ≤ 1 ∧ (kept = [value] ∨ kept = [])

variable {inStep : σ → Prop} {frame : γ → List α} {value : γ → β} {contents : List γ}

/-- A decoder in step takes every frame of a row, in order. -/
theorem frames (taken : ∀ content ∈ contents, Taken push inStep (frame content) (value content))
    (begins : inStep state) : (feedAll push state (contents.flatMap frame)).1 = contents.map value ∧
      inStep (feedAll push state (contents.flatMap frame)).2 := by
  -- The induction is over the contents: each frame ends in step, where the next one begins.
  induction contents generalizing state with
  | nil => exact ⟨rfl, begins⟩
  | cons content contents ih =>
    obtain ⟨first, still⟩ := taken content List.mem_cons_self state begins
    obtain ⟨rest, ends⟩ := ih (fun other member => taken other (List.mem_cons_of_mem _ member)) still
    rw [List.flatMap_cons, append, first, rest]
    exact ⟨rfl, ends⟩

/-- Any decoder misses the first frame of a row at most, and gives out one value more at most, before it. -/
theorem frames_of_any (taken : ∀ content ∈ contents, Taken push inStep (frame content) (value content))
    (first : ∀ content ∈ contents, Resynchronises push inStep (frame content) (value content))
    (state : σ) : ∃ spurious kept, (feedAll push state (contents.flatMap frame)).1 = spurious ++ kept ∧
      spurious.length ≤ 1 ∧ (kept = contents.map value ∨ kept = contents.tail.map value) := by
  -- The first frame brings the decoder into step, and all others are taken.
  cases contents with
  | nil => exact ⟨[], [], rfl, Nat.zero_le _, .inl rfl⟩
  | cons content contents =>
    obtain ⟨ready, spurious, kept, given, short, either⟩ := first content List.mem_cons_self state
    have rest := (frames (fun other member => taken other (List.mem_cons_of_mem _ member)) ready).1
    refine ⟨spurious, kept ++ contents.map value, ?_, short, ?_⟩
    · rw [List.flatMap_cons, append, given, rest, List.append_assoc]
    · rcases either with rfl | rfl
      · exact .inl rfl
      · exact .inr rfl

end FeedAll

end Reticulum
