import ReticulumSdk.Base.Table

/-! A second table that finds the values of a first one by a key of their own, and how the two stay together. -/

namespace Reticulum.Table

variable {K J V : Type} [DecidableEq K] [DecidableEq J]

/-- Every key of a list leaves a table, in their order. -/
def eraseAll (keys : List K) (table : Table K V) : Table K V :=
  keys.foldl (fun table key => table.erase key) table

/-- What is looked up afterwards was not erased. -/
theorem lookup_eraseAll (keys : List K) (table : Table K V) (key : K) :
    (table.eraseAll keys).lookup key = if key ∈ keys then none else table.lookup key := by
  -- The keys are erased one after the other, and none comes back.
  unfold eraseAll
  induction keys generalizing table with
  | nil => simp
  | cons first rest ih =>
    rw [List.foldl_cons, ih]
    by_cases later : key ∈ rest
    · simp [later]
    · by_cases here : key = first
      · subst here
        simp
      · simp [later, here, AList.lookup_erase_ne here]

/-- The members that are left are those that were not erased. -/
theorem mem_eraseAll {keys : List K} {table : Table K V} {key : K} :
    key ∈ table.eraseAll keys ↔ key ∉ keys ∧ key ∈ table := by
  rw [← AList.lookup_isSome, lookup_eraseAll, ← AList.lookup_isSome]
  split <;> simp [*]

/-- A view loses what its table loses. -/
theorem mapValues_eraseAll {W : Type} (view : K → V → W) (keys : List K) (table : Table K V) :
    mapValues view (table.eraseAll keys) = (mapValues view table).eraseAll keys := by
  -- The keys are erased one after the other on both sides.
  unfold eraseAll
  induction keys generalizing table with
  | nil => rfl
  | cons first rest ih => rw [List.foldl_cons, List.foldl_cons, ih, mapValues_erase]

/-- Erasing what was just written is erasing what was there before. -/
theorem erase_insert_self (table : Table K V) (key : K) (value : V) :
    (table.insert key value).erase key = table.erase key :=
  AList.ext (List.kerase_cons_eq rfl)

/-- Writing over an entry is writing where it was erased. -/
theorem insert_erase_self (table : Table K V) (key : K) (value : V) :
    (table.erase key).insert key value = table.insert key value := by
  apply AList.ext
  have absent : key ∉ table.erase key := by simp [AList.mem_erase]
  rw [AList.entries_insert_of_notMem absent, AList.entries_insert]
  rfl

/-- The index is the map from the values' own keys to the values, none of which is held twice. -/
structure Indexed (ownKey : V → J) (table : Table K V) (index : Table J V) : Prop where
  mirrors : ∀ own value, index.lookup own = some value ↔
    ∃ key, table.lookup key = some value ∧ ownKey value = own
  separate : ∀ first second value, table.lookup first = some value →
    table.lookup second = some value → first = second

namespace Indexed

variable {ownKey : V → J} {table : Table K V} {index : Table J V} {key : K} {own : J} {value : V}

/-- Nothing indexes nothing. -/
theorem empty : Indexed ownKey (∅ : Table K V) (∅ : Table J V) where
  mirrors := by simp
  separate := by simp

/-- A value of the table is found by its own key. -/
theorem found (indexed : Indexed ownKey table index) (here : table.lookup key = some value) :
    index.lookup (ownKey value) = some value :=
  (indexed.mirrors _ value).mpr ⟨key, here, rfl⟩

/-- Only the own keys of the values in the table matter. -/
theorem congr {ownKey' : V → J} (indexed : Indexed ownKey table index)
    (same : ∀ key value, table.lookup key = some value → ownKey' value = ownKey value) :
    Indexed ownKey' table index where
  -- Only the keys of values that are held matter.
  mirrors own value := by
    rw [indexed.mirrors]
    constructor
    · rintro ⟨key, here, rfl⟩
      exact ⟨key, here, same key value here⟩
    · rintro ⟨key, here, rfl⟩
      exact ⟨key, here, (same key value here).symm⟩
  separate := indexed.separate

/-- An entry of each may be erased exactly when both are of the same value, or neither is there. -/
theorem erase_iff (indexed : Indexed ownKey table index) :
    Indexed ownKey (table.erase key) (index.erase own) ↔ table.lookup key = index.lookup own := by
  constructor
  · -- If both are still an index of each other, what is erased on one side is erased on the other.
    intro after
    refine Option.ext fun lost => ⟨fun held => ?_, fun held => ?_⟩
    · -- A value lost from the table alone is still named by the index.
      by_contra other
      have apart : ownKey lost ≠ own := fun same => other (same ▸ indexed.found held)
      have kept : (index.erase own).lookup (ownKey lost) = some lost := by
        rw [AList.lookup_erase_ne apart]
        exact indexed.found held
      obtain ⟨place, there, -⟩ := (after.mirrors _ _).mp kept
      by_cases same : place = key
      · rw [same, AList.lookup_erase] at there
        cases there
      · rw [AList.lookup_erase_ne same] at there
        exact same (indexed.separate _ _ _ there held)
    · obtain ⟨place, there, mine⟩ := (indexed.mirrors _ _).mp held
      -- A value lost from the index alone is still held in the table.
      by_contra other
      have apart : place ≠ key := fun same => other (same ▸ there)
      have kept : (table.erase key).lookup place = some lost := by
        rw [AList.lookup_erase_ne apart]
        exact there
      have found := after.found kept
      rw [mine, AList.lookup_erase] at found
      cases found
  · -- If the same value goes from both, what is left mirrors itself.
    intro same
    refine ⟨fun other held => ?_, fun first second held one another => ?_⟩
    · -- Only under the erased key the index may have lost an entry.
      by_cases gone : other = own
      · subst gone
        rw [AList.lookup_erase]
        refine iff_of_false (by simp) ?_
        rintro ⟨place, there, mine⟩
        by_cases here : place = key
        · rw [here, AList.lookup_erase] at there
          cases there
        · rw [AList.lookup_erase_ne here] at there
          have taken := indexed.found there
          rw [mine, ← same] at taken
          exact here (indexed.separate _ _ _ there taken)
      · rw [AList.lookup_erase_ne gone, indexed.mirrors]
        constructor
        · rintro ⟨place, there, rfl⟩
          have apart : place ≠ key := by
            rintro rfl
            obtain ⟨-, -, mine⟩ := (indexed.mirrors _ _).mp (same.symm.trans there)
            exact gone mine
          exact ⟨place, by rw [AList.lookup_erase_ne apart, there], rfl⟩
        · rintro ⟨place, there, rfl⟩
          have apart : place ≠ key := by
            rintro rfl
            rw [AList.lookup_erase] at there
            cases there
          rw [AList.lookup_erase_ne apart] at there
          exact ⟨place, there, rfl⟩
    · -- What is left held was held before, under one key.
      have apart : ∀ place, (table.erase key).lookup place = some held → place ≠ key := by
        rintro place there rfl
        rw [AList.lookup_erase] at there
        cases there
      rw [AList.lookup_erase_ne (apart first one)] at one
      rw [AList.lookup_erase_ne (apart second another)] at another
      exact indexed.separate _ _ _ one another

/-- A value that neither table has, nor another under its keys, is added to both. -/
theorem insertNew (indexed : Indexed ownKey table index)
    (fresh : ∀ key, table.lookup key ≠ some value) (free : table.lookup key = none)
    (unnamed : index.lookup (ownKey value) = none) :
    Indexed ownKey (table.insert key value) (index.insert (ownKey value) value) where
  mirrors own other := by
    -- Under its own key the index names the new value, and under others what it named before.
    by_cases new : own = ownKey value
    · subst new
      rw [AList.lookup_insert]
      constructor
      · intro here
        obtain rfl := Option.some.inj here
        exact ⟨key, AList.lookup_insert _, rfl⟩
      · rintro ⟨place, there, same⟩
        -- No other place can hold the value that the index did not name.
        by_cases here : place = key
        · rwa [here, AList.lookup_insert] at there
        · rw [AList.lookup_insert_ne here] at there
          have taken := indexed.found there
          rw [same, unnamed] at taken
          cases taken
    · rw [AList.lookup_insert_ne new, indexed.mirrors]
      constructor
      · rintro ⟨place, there, rfl⟩
        have apart : place ≠ key := by
          rintro rfl
          rw [free] at there
          cases there
        exact ⟨place, by rw [AList.lookup_insert_ne apart, there], rfl⟩
      · rintro ⟨place, there, rfl⟩
        -- The place that holds another value is another place.
        have apart : place ≠ key := by
          rintro rfl
          rw [AList.lookup_insert] at there
          exact new (congrArg ownKey (Option.some.inj there).symm)
        rw [AList.lookup_insert_ne apart] at there
        exact ⟨place, there, rfl⟩
  separate first second other one another := by
    -- A value under two keys would be the new one, which was nowhere, or one that was there.
    by_cases here : first = key <;> by_cases there : second = key
    · exact here.trans there.symm
    · rw [here, AList.lookup_insert] at one
      rw [AList.lookup_insert_ne there] at another
      exact absurd (another.trans one.symm) (fresh second)
    · rw [there, AList.lookup_insert] at another
      rw [AList.lookup_insert_ne here] at one
      exact absurd (one.trans another.symm) (fresh first)
    · rw [AList.lookup_insert_ne here] at one
      rw [AList.lookup_insert_ne there] at another
      exact indexed.separate _ _ _ one another

/--
A value that is new to both tables may be written over one entry of each, exactly when both entries
are of the same value, or neither is there.
-/
theorem insert_iff (indexed : Indexed ownKey table index)
    (fresh : ∀ key, table.lookup key ≠ some value) :
    Indexed ownKey (table.insert key value) (index.insert (ownKey value) value) ↔
      table.lookup key = index.lookup (ownKey value) := by
  -- Writing over an entry is erasing it and adding another.
  constructor
  · intro after
    have agree : (table.insert key value).lookup key =
        (index.insert (ownKey value) value).lookup (ownKey value) := by
      rw [AList.lookup_insert, AList.lookup_insert]
    have back := after.erase_iff.mpr agree
    rw [erase_insert_self, erase_insert_self] at back
    exact indexed.erase_iff.mp back
  · intro same
    have erased := indexed.erase_iff.mpr same
    rw [← insert_erase_self table, ← insert_erase_self index]
    refine erased.insertNew (fun other held => ?_) (AList.lookup_erase _ _) (AList.lookup_erase _ _)
    by_cases here : other = key
    · rw [here, AList.lookup_erase] at held
      cases held
    · rw [AList.lookup_erase_ne here] at held
      exact fresh other held

/-- Entries of the same values may be erased together. -/
theorem eraseAll (indexed : Indexed ownKey table index) {entries : List (K × J)}
    (agree : ∀ entry ∈ entries, table.lookup entry.1 = index.lookup entry.2) :
    Indexed ownKey (table.eraseAll (entries.map (·.1))) (index.eraseAll (entries.map (·.2))) := by
  -- The entries are erased one pair after the other, and the rest must agree after the first.
  induction entries generalizing table index with
  | nil => exact indexed
  | cons entry rest ih =>
    obtain ⟨key, own⟩ := entry
    have here : table.lookup key = index.lookup own := agree _ List.mem_cons_self
    refine ih (indexed.erase_iff.mpr here) fun other member => ?_
    -- Another entry of the erased value is gone from both tables as well.
    have there := agree other (List.mem_cons_of_mem _ member)
    by_cases gone : other.1 = key
    · by_cases same : other.2 = own
      · rw [gone, same, AList.lookup_erase, AList.lookup_erase]
      · rw [gone, AList.lookup_erase, AList.lookup_erase_ne same]
        rw [gone] at there
        cases held : table.lookup key with
        | none => exact held.symm.trans there
        | some value =>
          have one := (indexed.mirrors _ _).mp (there.symm.trans held)
          have another := (indexed.mirrors _ _).mp (here.symm.trans held)
          obtain ⟨-, -, mine⟩ := one
          obtain ⟨-, -, yours⟩ := another
          exact absurd (mine.symm.trans yours) same
    · rw [AList.lookup_erase_ne gone]
      -- Another key of the erased value would be the same key.
      by_cases same : other.2 = own
      · rw [same, AList.lookup_erase]
        rw [same] at there
        cases held : table.lookup other.1 with
        | none => rfl
        | some value =>
          have shared := here.trans (there.symm.trans held)
          exact absurd (indexed.separate _ _ _ held shared) gone
      · rw [AList.lookup_erase_ne same, there]

end Indexed

end Reticulum.Table
