import Mathlib.Algebra.GroupWithZero.Nat
import Mathlib.Algebra.Order.Monoid.Unbundled.Basic
import Mathlib.Data.List.Basic

/-! What the steps of a machine give out, spend, gain and hold, added up over a run. -/

namespace Reticulum.Ledger

variable {σ α β M : Type} {next : σ → α → σ} {state : σ} {labels : List α}

/-- An amount for each step of a run, added up in the order of the steps. -/
def tally [Zero M] [Add M] (next : σ → α → σ) (amount : σ → α → M) : σ → List α → M
  | _, [] => 0
  | state, label :: labels => amount state label + tally next amount (next state label) labels

/-- What the steps of a run give out, in the order of the steps. -/
def outputs (next : σ → α → σ) (out : σ → α → List β) : σ → List α → List β
  | _, [] => []
  | state, label :: labels => out state label ++ outputs next out (next state label) labels

/-- Steps that come to nothing add up to nothing. -/
theorem tally_zero [AddMonoid M] : tally next (fun _ _ => (0 : M)) state labels = 0 := by
  induction labels generalizing state with
  | nil => rfl
  | cons label labels ih => rw [tally, ih, zero_add]

/-- A measure of what a run gives out is the sum of those of its steps. -/
theorem measure_outputs [AddMonoid M] {measure : List β → M} (none : measure [] = 0)
    (both : ∀ front back, measure (front ++ back) = measure front + measure back) {out : σ → α → List β} :
    measure (outputs next out state labels) =
      tally next (fun state label => measure (out state label)) state labels := by
  induction labels generalizing state with
  | nil => exact none
  | cons label labels ih => rw [outputs, both, ih, tally]

/-- Each step of a run is one that is allowed in the state it is taken in. -/
def Along (next : σ → α → σ) (allowed : σ → α → Prop) : σ → List α → Prop
  | _, [] => True
  | state, label :: labels => allowed state label ∧ Along next allowed (next state label) labels

/-- Where no step that is allowed spends more than it gains and lets go of what was held, neither does a run. -/
theorem tally_le_along [AddMonoid M] [Preorder M] [AddLeftMono M] [AddRightMono M] {held : σ → M}
    {spent gained : σ → α → M} {inv : σ → Prop} {allowed : σ → α → Prop}
    (step : ∀ state label, inv state → allowed state label →
      inv (next state label) ∧ spent state label + held (next state label) ≤ held state + gained state label)
    (begins : inv state) (along : Along next allowed state labels) :
    tally next spent state labels + held (labels.foldl next state) ≤
      held state + tally next gained state labels := by
  -- What the first step leaves is what the rest of the run begins with.
  induction labels generalizing state with
  | nil => exact (zero_add _).le.trans (add_zero _).ge
  | cons label labels ih =>
    obtain ⟨still, first⟩ := step state label begins along.1
    have rest := ih still along.2
    rw [List.foldl_cons, tally, tally]
    calc spent state label + tally next spent (next state label) labels
          + held (labels.foldl next (next state label))
        = spent state label + (tally next spent (next state label) labels
          + held (labels.foldl next (next state label))) := add_assoc _ _ _
      _ ≤ spent state label + (held (next state label) + tally next gained (next state label) labels) :=
          add_le_add_right rest _
      _ = spent state label + held (next state label) + tally next gained (next state label) labels :=
          (add_assoc _ _ _).symm
      _ ≤ held state + gained state label + tally next gained (next state label) labels :=
          add_le_add_left first _
      _ = held state + (gained state label + tally next gained (next state label) labels) :=
          add_assoc _ _ _

/-- The same where every step is allowed. -/
theorem tally_le [AddMonoid M] [Preorder M] [AddLeftMono M] [AddRightMono M] {held : σ → M}
    {spent gained : σ → α → M} {inv : σ → Prop}
    (step : ∀ state label, inv state →
      inv (next state label) ∧ spent state label + held (next state label) ≤ held state + gained state label)
    (begins : inv state) : tally next spent state labels + held (labels.foldl next state) ≤
      held state + tally next gained state labels := by
  have along : Along next (fun _ _ => True) state labels := by
    clear begins
    induction labels generalizing state with
    | nil => trivial
    | cons label labels ih => exact ⟨trivial, ih⟩
  exact tally_le_along (fun state label holds _ => step state label holds) begins along

/-- A store of which every step accounts for gives out what it had and what it is given, in some order. -/
theorem outputs_perm {store : σ → List β} {taken given : σ → α → List β}
    (step : ∀ state label, (taken state label ++ store (next state label)).Perm
      (store state ++ given state label)) :
    (outputs next taken state labels ++ store (labels.foldl next state)).Perm
      (store state ++ outputs next given state labels) := by
  induction labels generalizing state with
  | nil => exact .of_eq (List.append_nil _).symm
  | cons label labels ih =>
    rw [List.foldl_cons, outputs, outputs, List.append_assoc]
    have rest := (@ih (next state label)).append_left (taken state label)
    have first := (step state label).append_right (outputs next given (next state label) labels)
    rw [List.append_assoc, List.append_assoc] at first
    exact rest.trans first

/-- Where no step of a run gives out anything out of turn, the run gives all out in order. -/
theorem outputs_queue {queue : σ → List β} {taken given : σ → α → List β} {early : σ → α → Nat}
    (step : ∀ state label, early state label = 0 →
      taken state label ++ queue (next state label) = queue state ++ given state label)
    (none : tally next early state labels = 0) :
    outputs next taken state labels ++ queue (labels.foldl next state) =
      queue state ++ outputs next given state labels := by
  -- The queue after the first step is what the rest of the run begins with.
  induction labels generalizing state with
  | nil => exact (List.append_nil _).symm
  | cons label labels ih =>
    rw [tally, Nat.add_eq_zero_iff] at none
    rw [List.foldl_cons, outputs, outputs, List.append_assoc, ih none.2, ← List.append_assoc,
      step state label none.1, List.append_assoc]

end Reticulum.Ledger
