import Mathlib.Data.List.Basic

/-! Histories of one entry: which value the changes made to it leave standing. -/

namespace Reticulum

/-- A change of an entry. -/
inductive Change (V : Type) where
  /-- A value takes the place of what there is. -/
  | put (value : V)
  /-- The value there is goes unless it passes. -/
  | filter (passes : V → Bool)

namespace Change

variable {V : Type} {entry : Option V} {changes : List (Change V)} {value : V}

/-- An entry after a change. -/
def apply (entry : Option V) : Change V → Option V
  | .put value => some value
  | .filter passes => entry.filter passes

/-- A change that leaves a value where it is. -/
def Keeps (value : V) : Change V → Prop
  | .put _ => False
  | .filter passes => passes value = true

/-- A value stands that was there or was put, and that every change since then keeps. -/
def Stands (entry : Option V) (changes : List (Change V)) (value : V) : Prop :=
  (entry = some value ∧ ∀ change ∈ changes, change.Keeps value) ∨
    ∃ before after, changes = before ++ .put value :: after ∧ ∀ change ∈ after, change.Keeps value

/-- A value stands after a change and more exactly when it stands after those that are left. -/
theorem stands_cons_iff {change : Change V} :
    Stands entry (change :: changes) value ↔ Stands (change.apply entry) changes value := by
  have later : (∃ before after, change :: changes = before ++ .put value :: after ∧
      ∀ change ∈ after, change.Keeps value) ↔
      (change = .put value ∧ ∀ change ∈ changes, change.Keeps value) ∨
        ∃ before after, changes = before ++ .put value :: after ∧
          ∀ change ∈ after, change.Keeps value := by
    -- The value was put by this change, or by one of the others.
    constructor
    · rintro ⟨before, after, whole, kept⟩
      cases before with
      | nil =>
        obtain ⟨rfl, rfl⟩ := List.cons.inj whole
        exact .inl ⟨rfl, kept⟩
      | cons first before => exact .inr ⟨before, after, (List.cons.inj whole).2, kept⟩
    · rintro (⟨rfl, kept⟩ | ⟨before, after, rfl, kept⟩)
      · exact ⟨[], changes, rfl, kept⟩
      · exact ⟨change :: before, after, rfl, kept⟩
  unfold Stands
  rw [later, ← or_assoc]
  refine or_congr_left ?_
  rw [List.forall_mem_cons]
  cases change with
  -- A value that is put overrides what was there.
  | put other => simp [Keeps, apply]
  -- What was there passes, or it is gone.
  | filter passes => simp [Keeps, apply, Option.filter_eq_some_iff, and_assoc]

/-- The changes leave an entry with the value that stands. -/
theorem foldl_apply_iff : changes.foldl apply entry = some value ↔ Stands entry changes value := by
  -- Change by change from the first, with the entry as it is then.
  induction changes generalizing entry with
  | nil => simp [Stands]
  | cons change changes ih => rw [List.foldl_cons, ih, stands_cons_iff]

end Change

end Reticulum
