import Mathlib.Algebra.Group.Nat.Defs
import Mathlib.Data.List.Basic

/-! The lines of a text, and when the lines that a text was joined from are its lines. -/

namespace Reticulum.TextLines

/-- A character that ends a line. -/
def isLineBreak (char : Char) : Bool := char = '\n' || char = '\r'

/-- A text of one line. -/
def Unbroken (text : String) : Prop := ∀ char ∈ text.toList, isLineBreak char = false

instance (text : String) : Decidable (Unbroken text) :=
  List.decidableBAll (fun char => isLineBreak char = false) text.toList

/-- The lines of a text, without what ends them. -/
def lines (text : String) : List String := (text.toList.splitOnP isLineBreak).map String.ofList

/-- Lines joined to one text. -/
def joinLines (pieces : List String) : String := "\n".intercalate pieces

variable {text first second : String} {pieces : List String}

/-- Two texts are unbroken together exactly when each is. -/
@[simp] theorem unbroken_append : Unbroken (first ++ second) ↔ Unbroken first ∧ Unbroken second := by
  simp only [Unbroken, String.toList_append, List.mem_append, or_imp, forall_and]

/-- A digit ends no line. -/
theorem not_break_of_isDigit {char : Char} (digit : char.isDigit = true) : isLineBreak char = false := by
  unfold isLineBreak
  by_contra ends
  -- Neither of the two characters is a digit.
  simp only [Bool.not_eq_false, Bool.or_eq_true, decide_eq_true_eq] at ends
  rcases ends with rfl | rfl <;> exact absurd digit (by decide)

/-- The digits of a number end no line. -/
theorem not_break_of_mem_toDigits {number : Nat} {char : Char} (member : char ∈ Nat.toDigits 10 number) :
    isLineBreak char = false :=
  not_break_of_isDigit (Nat.isDigit_of_mem_toDigits (by decide) (by decide) member)

/-- A number is written on one line. -/
theorem unbroken_toString (number : Nat) : Unbroken (toString number) := by
  intro char member
  exact @not_break_of_mem_toDigits number char (by simpa using member)

/-- A text without line breaks is its only line. -/
theorem lines_of_unbroken (unbroken : Unbroken text) : lines text = [text] := by
  rw [lines, List.splitOnP_eq_singleton unbroken, List.map_singleton, String.ofList_toList]

/-- What is left between the characters that a list is split at is none of them. -/
theorem not_of_mem_splitOnP {α : Type} {splits : α → Bool} {items part : List α}
    (member : part ∈ items.splitOnP splits) : ∀ item ∈ part, splits item = false := by
  induction items generalizing part with
  | nil =>
    obtain rfl := List.mem_singleton.mp member
    simp
  | cons first rest ih =>
    rw [List.splitOnP_cons_eq_if_modifyHead] at member
    split at member
    · rcases List.mem_cons.mp member with rfl | later
      · simp
      · exact ih later
    · rename_i passes
      -- The first item goes in front of the first part of the rest.
      cases parts : rest.splitOnP splits with
      | nil => exact absurd parts (List.splitOnP_ne_nil _ _)
      | cons head tail =>
        rw [parts] at member ih
        rcases List.mem_cons.mp member with rfl | later
        · intro item among
          rcases List.mem_cons.mp among with rfl | behind
          · exact (Bool.not_eq_true _).mp passes
          · exact ih List.mem_cons_self item behind
        · exact ih (List.mem_cons_of_mem _ later)

/-- No line has a line break in it. -/
theorem unbroken_of_mem_lines (member : first ∈ lines text) : Unbroken first := by
  -- A part between two breaks has none of its own.
  obtain ⟨part, inside, rfl⟩ := List.mem_map.mp member
  unfold Unbroken
  rw [String.toList_ofList]
  exact not_of_mem_splitOnP inside

/-- A line that is followed by another text is the first line. -/
theorem lines_append_break (unbroken : Unbroken first) :
    lines (first ++ "\n" ++ second) = first :: lines second := by
  have shape : (first ++ "\n" ++ second).toList = first.toList ++ '\n' :: second.toList := by
    simp
  rw [lines, shape, List.splitOnP_append_cons_of_forall_mem unbroken _ (by decide), List.map_cons,
    String.ofList_toList]
  rfl

/-- Joined lines are the lines of the text exactly when no line break is in them. -/
theorem lines_joinLines (some : pieces ≠ []) :
    lines (joinLines pieces) = pieces ↔ ∀ piece ∈ pieces, Unbroken piece := by
  constructor
  · intro same piece member
    exact unbroken_of_mem_lines (same.symm ▸ member)
  · intro unbroken
    induction pieces with
    | nil => exact absurd rfl some
    | cons first rest ih =>
      have here := unbroken first List.mem_cons_self
      cases rest with
      | nil =>
        rw [joinLines, String.intercalate_singleton]
        exact lines_of_unbroken here
      | cons second rest =>
        -- The first line is cut off, and the rest is joined again.
        rw [joinLines, String.intercalate_cons_cons, lines_append_break here]
        exact congrArg (first :: ·)
          (ih (by simp) fun piece member => unbroken piece (List.mem_cons_of_mem _ member))

end Reticulum.TextLines
