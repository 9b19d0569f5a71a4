import Mathlib.Data.List.AList

/-! Finite maps with values of one type, as a hash map has them. -/

namespace Reticulum

/-- A finite map from keys to values. -/
abbrev Table (K V : Type) := AList fun _ : K => V

namespace Table

variable {K V : Type}

/-- The number of entries. -/
def size (table : Table K V) : Nat := table.keys.length

variable [DecidableEq K] {table : Table K V} {key : K}

/-- An entry makes its key a member. -/
theorem mem_of_lookup {value : V} (found : table.lookup key = some value) : key ∈ table :=
  AList.lookup_isSome.mp (by simp [found])

/-- An entry found after an insertion is the one inserted, or was there before. -/
theorem of_lookup_insert {other : K} {value found : V}
    (held : (table.insert key value).lookup other = some found) :
    other = key ∧ found = value ∨ other ≠ key ∧ table.lookup other = some found := by
  by_cases same : other = key
  · -- Under its own key an insertion overrides what was there.
    subst same
    exact .inl ⟨rfl, (Option.some.inj ((AList.lookup_insert _).symm.trans held)).symm⟩
  · -- Any other key is looked up as before.
    exact .inr ⟨same, (AList.lookup_insert_ne same).symm.trans held⟩

/-- An entry found after an erasure was there before, under another key. -/
theorem of_lookup_erase {other : K} {found : V} (held : (table.erase key).lookup other = some found) :
    other ≠ key ∧ table.lookup other = some found := by
  -- The erased key is no longer found, so the entry found is under another.
  have apart : other ≠ key := fun same =>
    absurd ((AList.lookup_erase _ _).symm.trans (same ▸ held)) (by simp)
  exact ⟨apart, (AList.lookup_erase_ne apart).symm.trans held⟩

/-- Inserting replaces an entry or adds one. -/
theorem size_insert (table : Table K V) (key : K) (value : V) :
    size (table.insert key value) = if key ∈ table then table.size else table.size + 1 := by
  -- An insertion first erases the key, which was listed once if at all.
  unfold size
  rw [AList.keys_insert, List.length_cons]
  split
  · rename_i member
    have listed := AList.mem_keys.mp member
    have positive := List.length_pos_of_mem listed
    rw [List.length_erase_of_mem listed]
    omega
  · rename_i absent
    rw [List.erase_of_not_mem (mt AList.mem_keys.mpr absent)]

/-- Erasing a member removes one entry. -/
theorem size_erase (member : key ∈ table) : size (table.erase key) + 1 = table.size := by
  -- The key was listed, and one key less is left.
  have listed := AList.mem_keys.mp member
  have positive := List.length_pos_of_mem listed
  unfold size
  rw [AList.keys_erase, List.length_erase_of_mem listed]
  omega

/-- Erasing what is no member changes nothing. -/
theorem size_erase_of_notMem (absent : key ∉ table) : size (table.erase key) = table.size := by
  unfold size
  rw [AList.keys_erase, List.erase_of_not_mem (mt AList.mem_keys.mpr absent)]

/-- What is inserted under a new key and erased again leaves no trace. -/
theorem erase_insert (absent : key ∉ table) (value : V) :
    (table.insert key value).erase key = table := by
  -- The new entry stands first, and the first entry under a key is the one erased.
  apply AList.ext
  rw [AList.insert_of_notMem absent]
  exact List.kerase_cons_eq rfl

/-- The values, each as often as it is held. -/
def values (table : Table K V) : List V := table.entries.map (·.2)

omit [DecidableEq K] in
/-- An empty table holds no value. -/
@[simp] theorem values_empty : values (∅ : Table K V) = [] := rfl

/-- A value under a new key comes on top. -/
theorem values_insert (absent : table.lookup key = none) (value : V) :
    values (table.insert key value) = value :: table.values := by
  unfold values
  rw [AList.entries_insert_of_notMem (AList.lookup_eq_none.mp absent), List.map_cons]

/-- What is erased is one value, and the rest stays. -/
theorem values_erase {value : V} (found : table.lookup key = some value) :
    table.values.Perm (value :: values (table.erase key)) := by
  -- Erasing cuts out the first entry under the key, and there is but one.
  obtain ⟨held, front, back, -, whole, rest⟩ :=
    List.exists_of_kerase (AList.mem_keys.mp (mem_of_lookup found))
  -- The entry that is cut out is the one the lookup finds.
  have same : held = value := by
    have member : (⟨key, held⟩ : Sigma fun _ : K => V) ∈ table.entries := by
      rw [whole]
      exact List.mem_append_right _ List.mem_cons_self
    exact Option.some.inj ((List.mem_dlookup table.nodupKeys member).symm.trans found)
  have erased : (table.erase key).entries = front ++ back := rest
  unfold values
  rw [erased, whole, same, List.map_append, List.map_append, List.map_cons]
  exact List.perm_middle

/-- The entries that pass a test, as `retain` keeps them. -/
def retain (passes : K → V → Bool) (table : Table K V) : Table K V where
  entries := table.entries.filter fun entry => passes entry.1 entry.2
  nodupKeys := table.nodupKeys.sublist List.filter_sublist

/-- An entry is kept exactly when it is there and passes. -/
theorem lookup_retain (passes : K → V → Bool) (table : Table K V) (key : K) :
    (table.retain passes).lookup key = (table.lookup key).filter (passes key) := by
  -- Both sides are told by the values they hold.
  apply Option.ext
  intro value
  rw [Option.filter_eq_some_iff]
  exact AList.mem_lookup_iff.trans (List.mem_filter.trans (and_congr_left' AList.mem_lookup_iff.symm))

omit [DecidableEq K] in
/-- No entry is added. -/
theorem size_retain (passes : K → V → Bool) (table : Table K V) :
    (table.retain passes).size ≤ table.size := by
  unfold size AList.keys List.keys
  rw [List.length_map, List.length_map]
  exact List.length_filter_le _ _

/-- Each value seen through a function of its key and of it. -/
def mapValues {W : Type} (view : K → V → W) (table : Table K V) : Table K W where
  entries := table.entries.map fun entry => ⟨entry.1, view entry.1 entry.2⟩
  nodupKeys := table.nodupKeys.map₂ view

/-- What is seen of an entry is seen where it is. -/
@[simp] theorem lookup_mapValues {W : Type} (view : K → V → W) (table : Table K V) (key : K) :
    (table.mapValues view).lookup key = (table.lookup key).map (view key) :=
  List.dlookup_map₂ key (f := view)

/-- A view is erased where its entry is. -/
theorem mapValues_erase {W : Type} (view : K → V → W) (table : Table K V) (key : K) :
    mapValues view (table.erase key) = (mapValues view table).erase key := by
  apply AList.ext
  -- The erasure stops at the first entry under the key, which the view does not change.
  have erased : ∀ entries : List (Sigma fun _ : K => V),
      (List.kerase key entries).map
          (fun entry => (⟨entry.1, view entry.1 entry.2⟩ : Sigma fun _ : K => W)) =
        List.kerase key (entries.map fun entry => ⟨entry.1, view entry.1 entry.2⟩) := by
    intro entries
    induction entries with
    | nil => rfl
    | cons entry rest ih =>
      by_cases same : key = entry.1
      · rw [@List.kerase_cons_eq _ _ _ key entry rest same, List.map_cons]
        exact (@List.kerase_cons_eq K (fun _ => W) _ key ⟨entry.1, view entry.1 entry.2⟩ _ same).symm
      · rw [@List.kerase_cons_ne _ _ _ key entry rest same, List.map_cons, List.map_cons, ih]
        exact (@List.kerase_cons_ne K (fun _ => W) _ key ⟨entry.1, view entry.1 entry.2⟩ _ same).symm
  exact erased table.entries

/-- A view is inserted where its entry is. -/
theorem mapValues_insert {W : Type} (view : K → V → W) (table : Table K V) (key : K) (value : V) :
    mapValues view (table.insert key value) =
      (mapValues view table).insert key (view key value) := by
  -- An insertion is an erasure with an entry put in front of it.
  apply AList.ext
  have erased := congrArg AList.entries (mapValues_erase view table key)
  rw [AList.entries_insert]
  show (⟨key, view key value⟩ : Sigma fun _ : K => W) :: (List.kerase key table.entries).map _ =
    ⟨key, view key value⟩ :: List.kerase key (table.entries.map _)
  exact congrArg _ erased

/-- What is collected from the entries and told by its key comes from the entry under it. -/
theorem filter_filterMap {W : Type} (collect : K → V → Option W) (test : W → Bool)
    (table : Table K V) (key : K)
    (told : ∀ other value collected, table.lookup other = some value →
      collect other value = some collected → test collected = decide (other = key)) :
    (table.entries.filterMap fun entry => collect entry.1 entry.2).filter test =
      ((table.lookup key).bind (collect key)).toList := by
  -- The induction is over the entries, whose keys are distinct.
  obtain ⟨entries, distinct⟩ := table
  replace told : ∀ entry ∈ entries, ∀ collected, collect entry.1 entry.2 = some collected →
      test collected = decide (entry.1 = key) := fun entry member collected =>
    told entry.1 entry.2 collected (List.mem_dlookup distinct member)
  show (entries.filterMap fun entry => collect entry.1 entry.2).filter test =
    ((entries.dlookup key).bind (collect key)).toList
  induction entries with
  | nil => rfl
  | cons first remaining ih =>
    have distinctRest := List.nodupKeys_of_nodupKeys_cons distinct
    have toldRest := fun entry member => told entry (List.mem_cons_of_mem first member)
    have rest := ih distinctRest toldRest
    obtain ⟨other, value⟩ := first
    have toldFirst := told ⟨other, value⟩ List.mem_cons_self
    by_cases same : other = key
    · subst same
      -- No further entry has this key.
      have absent := List.dlookup_eq_none.mpr (List.notMem_keys_of_nodupKeys_cons distinct)
      rw [absent, Option.bind_none, Option.toList_none] at rest
      rw [List.dlookup_cons_eq, Option.bind_some]
      cases collected : collect other value with
      | none =>
        simp only [List.filterMap_cons, collected]
        exact rest
      | some here =>
        simp only [List.filterMap_cons, collected]
        -- What this entry gives passes, and nothing after it does.
        rw [List.filter_cons_of_pos ((toldFirst here collected).trans (decide_eq_true rfl)), rest]
        rfl
    · have elsewhere : List.dlookup key ((⟨other, value⟩ : Sigma fun _ : K => V) :: remaining) =
          List.dlookup key remaining := List.dlookup_cons_ne _ _ (Ne.symm same)
      rw [elsewhere, ← rest]
      cases collected : collect other value with
      | none => simp only [List.filterMap_cons, collected]
      | some here =>
        simp only [List.filterMap_cons, collected]
        -- What an entry under another key gives is filtered out.
        rw [List.filter_cons_of_neg]
        rw [toldFirst here collected]
        simpa using same

end Table

end Reticulum
