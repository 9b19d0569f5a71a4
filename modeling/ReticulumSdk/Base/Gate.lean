import ReticulumSdk.Base.History

/-! Keys that are let through once: each stays known until its time is over or too many came after it. -/

namespace Reticulum.Gate

variable {K : Type} {limit now later : Nat} {history : List (K × Nat)} {entry : K × Nat}

/-- The entries that a gate still knows: of the last ones, as many as fit, those whose time is not over. -/
def live (limit now : Nat) (history : List (K × Nat)) : List (K × Nat) :=
  (history.rtake limit).filter fun entry => now < entry.2

/-- Where the times are in order, those that are over come first. -/
theorem filter_eq_dropWhile {entries : List (K × Nat)} (ordered : History.Ordered Prod.snd entries) :
    entries.filter (fun entry => now < entry.2) = entries.dropWhile fun entry => entry.2 ≤ now := by
  induction entries with
  | nil => rfl
  | cons first rest ih =>
    obtain ⟨early, behind⟩ := List.pairwise_cons.mp ordered
    by_cases ended : first.2 ≤ now
    · -- The first entry goes on both sides.
      rw [List.filter_cons_of_neg (by simpa using ended), List.dropWhile_cons_of_pos (by simpa using ended)]
      exact ih behind
    · -- The first entry stays, and no later one is over sooner.
      rw [List.dropWhile_cons_of_neg (by simpa using ended)]
      refine List.filter_eq_self.mpr fun entry member => ?_
      rcases List.mem_cons.mp member with rfl | after
      · simpa using ended
      · have order := early entry after
        simp only [decide_eq_true_eq]
        omega

/-- Two tests that agree on a list drop the same front of it. -/
theorem dropWhile_congr {α : Type} {test other : α → Bool} {items : List α}
    (agree : ∀ item ∈ items, test item = other item) : items.dropWhile test = items.dropWhile other := by
  -- The tests are only asked up to the first item that fails.
  induction items with
  | nil => rfl
  | cons first rest ih =>
    rw [List.dropWhile_cons, List.dropWhile_cons, agree first List.mem_cons_self,
      ih fun item member => agree item (List.mem_cons_of_mem _ member)]

/-- An entry is known exactly when its time is not over and fewer came after it than fit. -/
theorem mem_live_iff : entry ∈ live limit now history ↔
    ∃ front back, history = front ++ entry :: back ∧ now < entry.2 ∧ back.length < limit := by
  unfold live
  rw [List.mem_filter, decide_eq_true_eq, List.rtake]
  constructor
  · rintro ⟨member, timely⟩
    -- The entry splits what is kept of the history, and with it the history.
    obtain ⟨before, back, kept⟩ := List.append_of_mem member
    have whole := List.take_append_drop (history.length - limit) history
    have size := congrArg List.length kept
    rw [List.length_drop, List.length_append, List.length_cons] at size
    rw [kept, ← List.append_assoc] at whole
    exact ⟨_, back, whole.symm, timely, by omega⟩
  · rintro ⟨front, back, rfl, timely, fits⟩
    refine ⟨?_, timely⟩
    -- What is forgotten ends before the entry.
    rw [List.drop_append_of_le_length (by rw [List.length_append, List.length_cons]; omega)]
    exact List.mem_append_right _ List.mem_cons_self

/-- What is known stands in the order in which it came. -/
theorem live_sublist : (live limit now history).Sublist history :=
  List.filter_sublist.trans History.rtake_sublist

/-- Where the times are in order, it is the end of what came. -/
theorem live_suffix (ordered : History.Ordered Prod.snd history) :
    live limit now history <:+ history := by
  -- In the order of the expiries the items that are gone are the first ones.
  unfold live
  rw [filter_eq_dropWhile (ordered.sublist History.rtake_sublist)]
  exact (List.dropWhile_suffix _).trans (List.drop_suffix _ _)

/-- Where nothing came, nothing is known. -/
@[simp] theorem live_nil : live limit now ([] : List (K × Nat)) = [] := by simp [live, List.rtake]

/-- No more is known than fits. -/
theorem live_length : (live limit now history).length ≤ limit :=
  (List.length_filter_le _ _).trans History.rtake_length

/-- As time passes, the first of what is known is forgotten. -/
theorem live_later (ordered : History.Ordered Prod.snd history) (passes : now ≤ later) :
    live limit later history = (live limit now history).dropWhile fun entry => entry.2 ≤ later := by
  rw [← filter_eq_dropWhile (ordered.sublist live_sublist)]
  unfold live
  rw [List.filter_filter]
  -- What is not over later is not over now.
  refine List.filter_congr fun entry _ => ?_
  by_cases timely : later < entry.2
  · have sooner : now < entry.2 := by omega
    simp [timely, sooner]
  · simp [timely]

/-- A new entry comes last, and takes the place of the first when as many as fit were known. -/
theorem live_append (ordered : History.Ordered Prod.snd history) (room : 0 < limit)
    (timely : now < entry.2) :
    live limit now (history ++ [entry]) =
      if (live limit now history).length < limit then live limit now history ++ [entry]
      else (live limit now history).tail ++ [entry] := by
  unfold live
  -- Of the history itself one entry less is kept than before.
  have shifted : (history ++ [entry]).rtake limit = history.rtake (limit - 1) ++ [entry] := by
    have size : (history ++ [entry]).length - limit = history.length - (limit - 1) := by
      rw [List.length_append, List.length_singleton]
      omega
    rw [List.rtake, size, List.drop_append_of_le_length (by omega), List.rtake]
  rw [shifted, List.filter_append, List.filter_cons_of_pos (by simpa using timely), List.filter_nil]
  rcases Nat.lt_or_ge history.length limit with short | long
  · -- Nothing is forgotten of a short history.
    have whole : ∀ count, history.length ≤ count → history.rtake count = history := by
      intro count fits
      rw [List.rtake, Nat.sub_eq_zero_of_le fits, List.drop_zero]
    rw [whole _ (by omega), whole _ (by omega), if_pos]
    exact Nat.lt_of_le_of_lt (List.length_filter_le _ _) short
  · -- Of a long one the first of those kept is, whether it is known or over.
    have inside : history.length - limit < history.length := by omega
    have next : history.rtake limit =
        history[history.length - limit] :: history.rtake (limit - 1) := by
      rw [List.rtake, List.drop_eq_getElem_cons inside, List.rtake]
      congr 2
      omega
    have fewer : (history.rtake (limit - 1)).length ≤ limit - 1 := History.rtake_length
    have kept : History.Ordered Prod.snd (history.rtake limit) :=
      ordered.sublist History.rtake_sublist
    rw [next] at kept ⊢
    by_cases known : now < history[history.length - limit].2
    · -- Known, and so is everything after it: as many as fit.
      have all : (history.rtake (limit - 1)).filter (fun entry => now < entry.2) =
          history.rtake (limit - 1) := by
        refine List.filter_eq_self.mpr fun entry member => ?_
        have order := (List.pairwise_cons.mp kept).1 entry member
        simp only [decide_eq_true_eq]
        omega
      have full : (history.rtake (limit - 1)).length = limit - 1 := by
        rw [List.rtake, List.length_drop]
        omega
      rw [List.filter_cons_of_pos (by simpa using known), all, if_neg, List.tail_cons]
      rw [List.length_cons, full]
      omega
    · -- Over, so that it was not known anyway.
      rw [List.filter_cons_of_neg (by simpa using known), if_pos]
      exact Nat.lt_of_le_of_lt ((List.length_filter_le _ _).trans fewer) (by omega)

end Reticulum.Gate
