import Mathlib.Data.List.Induction
import ReticulumSdk.Base.Table

/-! A table that keeps, for each key of the items of a list, the last place where the key stands. -/

namespace Reticulum.Positions

variable {K V : Type} [DecidableEq K] {ownKey : V → K} {items others : List V} {table : Table K Nat}

/-- The last item of a list with a key. -/
def lastItem (ownKey : V → K) (key : K) (items : List V) : Option V :=
  items.reverse.find? fun item => ownKey item = key

/-- A table made anew: the items are entered one after another, each with its place. -/
def rebuild (ownKey : V → K) (items : List V) : Table K Nat :=
  items.zipIdx.foldl (fun table entry => table.insert (ownKey entry.1) entry.2) ∅

/-- A table that finds what a new one would. -/
def Kept (ownKey : V → K) (items : List V) (table : Table K Nat) : Prop :=
  ∀ key, table.lookup key = (rebuild ownKey items).lookup key

/-- One item more is entered last. -/
theorem rebuild_append (items : List V) (item : V) : rebuild ownKey (items ++ [item]) =
    (rebuild ownKey items).insert (ownKey item) items.length := by
  simp [rebuild, List.zipIdx_append]

/-- Only the keys of the items matter. -/
theorem rebuild_congr (same : items.map ownKey = others.map ownKey) :
    rebuild ownKey items = rebuild ownKey others := by
  -- The table is one of the keys alone.
  have alone : ∀ list : List V, rebuild ownKey list =
      (list.map ownKey).zipIdx.foldl (fun table entry => table.insert entry.1 entry.2) ∅ := by
    intro list
    rw [List.zipIdx_map, List.foldl_map]
    rfl
  rw [alone, alone, same]

/-- A key of no item is in no place, and any other in the place of the last item with it. -/
theorem rebuild_lookup (items : List V) (key : K) :
    ((rebuild ownKey items).lookup key = none ∧ lastItem ownKey key items = none) ∨
      ∃ place item, (rebuild ownKey items).lookup key = some place ∧ items[place]? = some item ∧
        lastItem ownKey key items = some item := by
  -- The last item is the one that is found first.
  induction items using List.reverseRecOn with
  | nil => exact .inl ⟨rfl, rfl⟩
  | append_singleton items item ih =>
    rw [rebuild_append, lastItem, List.reverse_append, List.reverse_singleton, List.singleton_append]
    by_cases here : ownKey item = key
    · -- The item has the key, and stands behind all others.
      refine .inr ⟨items.length, item, ?_, ?_, ?_⟩
      · rw [here, AList.lookup_insert]
      · simp
      · simp [here]
    · rw [AList.lookup_insert_ne (Ne.symm here), List.find?_cons_of_neg (by simpa using here)]
      rcases ih with missing | ⟨place, other, found, there, last⟩
      · exact .inl missing
      · refine .inr ⟨place, other, found, ?_, last⟩
        rw [List.getElem?_append_left (List.getElem?_eq_some_iff.mp there).1, there]

/-- Items that are related one by one have related last items. -/
theorem lastItem_forall₂ {related : V → V → Prop} (each : List.Forall₂ related items others)
    (same : ∀ item other, related item other → ownKey other = ownKey item) (key : K) {item : V}
    (last : lastItem ownKey key items = some item) :
    ∃ other, lastItem ownKey key others = some other ∧ related item other := by
  unfold lastItem at last ⊢
  -- Turned around, the first with the key is the same on both sides.
  have turned := List.rel_reverse each
  generalize items.reverse = front at turned last
  generalize others.reverse = back at turned
  induction turned with
  | nil => cases last
  | @cons first other rest others here _ ih =>
    have key_iff := same first other here
    by_cases has : ownKey first = key
    · rw [List.find?_cons_of_pos (by simpa using has)] at last
      cases last
      exact ⟨other, List.find?_cons_of_pos (by simpa [key_iff] using has), here⟩
    · rw [List.find?_cons_of_neg (by simpa using has)] at last
      rw [List.find?_cons_of_neg (by simpa [key_iff] using has)]
      exact ih last

/-- A last item that stays is the last of those that do. -/
theorem lastItem_filter {stays : V → Bool} {key : K} {item : V} (last : lastItem ownKey key items = some item)
    (kept : stays item = true) : lastItem ownKey key (items.filter stays) = some item := by
  unfold lastItem at last ⊢
  rw [← List.filter_reverse]
  generalize items.reverse = front at last
  induction front with
  | nil => cases last
  | cons first rest ih =>
    by_cases has : ownKey first = key
    · rw [List.find?_cons_of_pos (by simpa using has)] at last
      cases last
      rw [List.filter_cons_of_pos kept, List.find?_cons_of_pos (by simpa using has)]
    · rw [List.find?_cons_of_neg (by simpa using has)] at last
      rw [List.filter_cons]
      split
      · rw [List.find?_cons_of_neg (by simpa using has), ih last]
      · exact ih last

/-- An item with another key makes no difference. -/
theorem lastItem_append {key : K} {item : V} (other : ownKey item ≠ key) :
    lastItem ownKey key (items ++ [item]) = lastItem ownKey key items := by
  rw [lastItem, List.reverse_append, List.reverse_singleton, List.singleton_append,
    List.find?_cons_of_neg (by simpa using other), lastItem]

namespace Kept

/-- A new table is kept. -/
theorem of_rebuild (items : List V) : Kept ownKey items (rebuild ownKey items) := fun _ => rfl

/-- Entering an item that is added keeps a table. -/
theorem append (kept : Kept ownKey items table) (item : V) :
    Kept ownKey (items ++ [item]) (table.insert (ownKey item) items.length) := by
  intro key
  rw [rebuild_append]
  by_cases here : key = ownKey item
  · rw [here, AList.lookup_insert, AList.lookup_insert]
  · rw [AList.lookup_insert_ne here, AList.lookup_insert_ne here, kept key]

/-- So does any change of the items that leaves their keys. -/
theorem congr (kept : Kept ownKey items table) (same : others.map ownKey = items.map ownKey) :
    Kept ownKey others table := by
  intro key
  rw [rebuild_congr same, kept key]

/-- The place a table keeps for a key holds the last item with it, and no place is kept where there is none. -/
theorem lookup (kept : Kept ownKey items table) (key : K) :
    (table.lookup key = none ∧ lastItem ownKey key items = none) ∨
      ∃ place item, table.lookup key = some place ∧ items[place]? = some item ∧
        lastItem ownKey key items = some item := by
  rw [kept key]
  exact rebuild_lookup items key

end Kept

end Reticulum.Positions
