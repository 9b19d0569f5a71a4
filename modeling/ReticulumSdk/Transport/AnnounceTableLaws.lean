import ReticulumSdk.Transport.AnnounceTable

/-! Laws of the announce table: what one call finds, sends, and leaves. -/

namespace Reticulum

namespace AnnounceEntry

/-- The entry has retries left and its timeout has come. -/
def Due (entry : AnnounceEntry) (now : Instant) : Prop :=
  entry.retries < LOCAL_REBROADCASTS_MAX ∧ entry.localRebroadcasts < LOCAL_REBROADCASTS_MAX ∧
    entry.timeout ≤ now

instance (entry : AnnounceEntry) (now : Instant) : Decidable (entry.Due now) :=
  inferInstanceAs (Decidable (_ ∧ _ ∧ _))

/-- The entry was sent, or passed on by others, as often as it may be. -/
def Spent (entry : AnnounceEntry) : Prop :=
  entry.retries ≥ LOCAL_REBROADCASTS_MAX ∨ entry.localRebroadcasts ≥ LOCAL_REBROADCASTS_MAX

instance (entry : AnnounceEntry) : Decidable entry.Spent := inferInstanceAs (Decidable (_ ∨ _))

variable {entry : AnnounceEntry} {now : Instant} {random : UInt64} {transportId : AddressHash}

/-- What is sent for an entry does not tell how often, or until when it waits. -/
theorem alwaysRetransmit_retried (entry : AnnounceEntry) (retries : Nat) (timeout : Instant) :
    alwaysRetransmit { entry with retries := retries, timeout := timeout } transportId =
      entry.alwaysRetransmit transportId := rfl

/-- A due entry is sent, and waits at least for the grace of a retry. -/
theorem retransmit_due (due : entry.Due now) : ∃ timeout, now + PATHFINDER_G ≤ timeout ∧
    entry.retransmit now random transportId = (.ready (entry.alwaysRetransmit transportId),
      { entry with retries := entry.retries + 1, timeout := timeout }) := by
  refine ⟨now + PATHFINDER_G + randomRwJitter random, Nat.le_add_right _ _, ?_⟩
  rw [retransmit, if_neg (by simp [due.1, due.2.1]), if_neg (Nat.not_lt.mpr due.2.2)]
  exact congrArg (fun message => (RetransmitOutcome.ready message, _))
    (alwaysRetransmit_retried entry _ _)

/-- Any other entry stays what it is. -/
theorem retransmit_idle (idle : ¬ entry.Due now) :
    entry.retransmit now random transportId =
      (if entry.Spent then .completed else .deferred, entry) := by
  by_cases spent : entry.Spent
  · -- A spent entry is completed, whether or not its timeout has come.
    rw [if_pos spent]
    exact if_pos spent
  · -- An entry with retries left is not due only because it is too early.
    have left := not_or.mp spent
    have early : now < entry.timeout := by
      by_contra late
      exact idle ⟨Nat.not_le.mp left.1, Nat.not_le.mp left.2, Nat.not_lt.mp late⟩
    rw [if_neg spent]
    exact (if_neg spent).trans (if_pos early)

/-- The message of an entry, if it is due. -/
theorem retransmit_message : (entry.retransmit now random transportId).1.message =
    if entry.Due now then some (entry.alwaysRetransmit transportId) else none := by
  -- Only a due entry is ready, and only what is ready has a message.
  split
  · rename_i due
    obtain ⟨timeout, -, sent⟩ := @retransmit_due _ _ random transportId due
    rw [sent]
    rfl
  · rename_i idle
    rw [retransmit_idle idle]
    dsimp only
    split <;> rfl

/-- An entry is completed exactly when it is spent. -/
theorem retransmit_completed :
    (entry.retransmit now random transportId).1 = .completed ↔ entry.Spent := by
  by_cases due : entry.Due now
  · -- A due entry is sent, and has retries left by definition.
    obtain ⟨timeout, -, sent⟩ := @retransmit_due _ _ random transportId due
    rw [sent]
    refine iff_of_false (by simp) ?_
    rintro (retries | echoes)
    · exact absurd due.1 (Nat.not_lt.mpr retries)
    · exact absurd due.2.1 (Nat.not_lt.mpr echoes)
  · rw [retransmit_idle due]
    dsimp only
    split <;> simp [*]

/-- What the entry is after a sweep, with a retry more and a later timeout if it was sent. -/
theorem retransmit_entry : (entry.retransmit now random transportId).2 = entry ∨
    entry.Due now ∧ ∃ timeout, now + PATHFINDER_G ≤ timeout ∧
      (entry.retransmit now random transportId).2 =
        { entry with retries := entry.retries + 1, timeout := timeout } := by
  -- Only what is sent changes.
  by_cases due : entry.Due now
  · obtain ⟨timeout, later, sent⟩ := @retransmit_due _ _ random transportId due
    exact .inr ⟨due, timeout, later, congrArg Prod.snd sent⟩
  · exact .inl (congrArg Prod.snd (retransmit_idle due))

end AnnounceEntry

namespace AnnounceCache

/-- An entry of either generation. -/
def Holds (cache : AnnounceCache) (destination : AddressHash) (entry : AnnounceEntry) : Prop :=
  cache.newer.lookup destination = some entry ∨
    ∃ older, cache.older = some older ∧ older.lookup destination = some entry

/-- No generation holds more than the capacity. -/
structure Bounded (cache : AnnounceCache) : Prop where
  newer : cache.newer.size ≤ cache.capacity
  older : ∀ older, cache.older = some older → older.size ≤ cache.capacity

variable {cache : AnnounceCache} {destination other : AddressHash} {entry found : AnnounceEntry}

/-- Both generations together hold at most twice the capacity. -/
theorem Bounded.size_le (bounded : cache.Bounded) : cache.size ≤ 2 * cache.capacity := by
  -- The older generation may be missing.
  have newer := bounded.newer
  unfold size
  cases older : cache.older with
  | none =>
    rw [Option.map_none, Option.getD_none]
    omega
  | some table =>
    have held := bounded.older table older
    rw [Option.map_some, Option.getD_some]
    omega

/-- What is got is held. -/
theorem holds_of_get (got : cache.get destination = some entry) : cache.Holds destination entry := by
  -- The newer generation is asked first.
  unfold get at got
  split at got
  · rename_i newer
    exact .inl (newer.trans got)
  · exact .inr (Option.bind_eq_some_iff.mp got)

/-- The generation an entry is inserted into, and the one before it. -/
theorem insert_cases (cache : AnnounceCache) (destination : AddressHash)
    (entry : AnnounceEntry) :
    cache.newer.size < cache.capacity ∧
        cache.insert destination entry =
          { cache with newer := cache.newer.insert destination entry } ∨
      cache.capacity ≤ cache.newer.size ∧
        cache.insert destination entry =
          { cache with
            older := some cache.newer
            newer := (∅ : Table AddressHash AnnounceEntry).insert destination entry } := by
  -- The two cases are whether the newer generation is full.
  unfold insert
  by_cases full : cache.newer.size ≥ cache.capacity
  · rw [if_pos full]
    exact .inr ⟨full, rfl⟩
  · rw [if_neg full]
    exact .inl ⟨Nat.not_le.mp full, rfl⟩

@[simp] theorem insert_capacity : (cache.insert destination entry).capacity = cache.capacity := by
  obtain ⟨-, shape⟩ | ⟨-, shape⟩ := insert_cases cache destination entry <;> rw [shape]

/-- Inserting keeps the generations within a capacity that holds anything at all. -/
theorem Bounded.insert (bounded : cache.Bounded) (room : 0 < cache.capacity) :
    (cache.insert destination entry).Bounded := by
  obtain ⟨free, shape⟩ | ⟨-, shape⟩ := insert_cases cache destination entry <;> rw [shape]
  · -- There was room for one entry more.
    refine ⟨?_, bounded.older⟩
    show Table.size (cache.newer.insert destination entry) ≤ cache.capacity
    rw [Table.size_insert]
    split <;> omega
  · -- The new generation holds one entry, and the older one is the generation that was full.
    refine ⟨room, fun older same => ?_⟩
    obtain rfl := Option.some.inj same
    exact bounded.newer

/-- What is held after an insertion is the entry, or was held before. -/
theorem holds_insert (held : (cache.insert destination entry).Holds other found) :
    other = destination ∧ found = entry ∨ cache.Holds other found := by
  obtain ⟨-, shape⟩ | ⟨-, shape⟩ := insert_cases cache destination entry <;> rw [shape] at held
  · rcases held with newer | older
    · obtain inserted | ⟨-, before⟩ := Table.of_lookup_insert newer
      · exact .inl inserted
      · exact .inr (.inl before)
    · exact .inr (.inr older)
  · -- The older generation is the one that was newer, and the one before it is gone.
    rcases held with newer | ⟨older, same, here⟩
    · obtain inserted | ⟨-, before⟩ := Table.of_lookup_insert newer
      · exact .inl inserted
      · cases before
    · obtain rfl := Option.some.inj same
      exact .inr (.inl here)

/-- Pruning only takes entries away. -/
theorem holds_prune {now : Instant} {maxAge : Duration}
    (held : (cache.prune now maxAge).Holds other found) : cache.Holds other found := by
  -- What is found in a generation that was swept was found in it before.
  unfold prune at held
  split at held
  · exact held
  · rcases held with newer | ⟨older, same, here⟩
    · exact .inl (Option.filter_eq_some_iff.mp ((Table.lookup_retain _ _ _).symm.trans newer)).1
    · obtain ⟨before, shape, rfl⟩ := Option.map_eq_some_iff.mp same
      exact .inr ⟨before, shape,
        (Option.filter_eq_some_iff.mp ((Table.lookup_retain _ _ _).symm.trans here)).1⟩

@[simp] theorem prune_capacity {now : Instant} {maxAge : Duration} :
    (cache.prune now maxAge).capacity = cache.capacity := by
  unfold prune
  split <;> rfl

/-- Pruning keeps the generations within the capacity. -/
theorem Bounded.prune (bounded : cache.Bounded) {now : Instant} {maxAge : Duration} :
    (cache.prune now maxAge).Bounded := by
  -- A sweep leaves no generation larger.
  unfold AnnounceCache.prune
  split
  · exact bounded
  · refine ⟨Nat.le_trans (Table.size_retain _ _) bounded.newer, fun older same => ?_⟩
    obtain ⟨before, shape, rfl⟩ := Option.map_eq_some_iff.mp same
    exact Nat.le_trans (Table.size_retain _ _) (bounded.older before shape)

/-- Entries go into the archive in their order. -/
def insertAll (cache : AnnounceCache) (entries : List (AddressHash × AnnounceEntry)) : AnnounceCache :=
  entries.foldl (fun cache entry => cache.insert entry.1 entry.2) cache

@[simp] theorem insertAll_capacity {entries : List (AddressHash × AnnounceEntry)} :
    (cache.insertAll entries).capacity = cache.capacity := by
  induction entries generalizing cache with
  | nil => rfl
  | cons first rest ih => exact ih.trans insert_capacity

/-- Archiving keeps the generations within a capacity that holds anything at all. -/
theorem Bounded.insertAll (bounded : cache.Bounded) (room : 0 < cache.capacity)
    {entries : List (AddressHash × AnnounceEntry)} : (cache.insertAll entries).Bounded := by
  induction entries generalizing cache with
  | nil => exact bounded
  | cons first rest ih => exact ih (bounded.insert room) (Nat.lt_of_lt_of_eq room insert_capacity.symm)

/-- What is held after entries went into the archive is among them, or was held before. -/
theorem holds_insertAll {entries : List (AddressHash × AnnounceEntry)}
    (held : (cache.insertAll entries).Holds other found) :
    (other, found) ∈ entries ∨ cache.Holds other found := by
  induction entries generalizing cache with
  | nil => exact .inr held
  | cons first rest ih =>
    rcases ih held with member | before
    · exact .inl (List.mem_cons_of_mem _ member)
    · rcases holds_insert before with ⟨rfl, rfl⟩ | before
      · exact .inl List.mem_cons_self
      · exact .inr before

/-- An entry is got as long as fewer are inserted after it than a generation holds. -/
private theorem get_insertAll_newer {entries : List (AddressHash × AnnounceEntry)}
    (here : cache.newer.lookup destination = some entry)
    (others : ∀ later ∈ entries, later.1 ≠ destination)
    (few : entries.length ≤ cache.capacity) :
    (cache.insertAll entries).get destination = some entry := by
  -- It is in the newer generation, or in the older one with the newer one too small to be full again.
  have carried : ∀ (entries : List (AddressHash × AnnounceEntry)) (cache : AnnounceCache),
      (∀ later ∈ entries, later.1 ≠ destination) →
      (cache.newer.lookup destination = some entry ∧ entries.length ≤ cache.capacity ∨
        cache.newer.lookup destination = none ∧
          (∃ older, cache.older = some older ∧ older.lookup destination = some entry) ∧
          cache.newer.size + entries.length ≤ cache.capacity) →
      (cache.insertAll entries).get destination = some entry := by
    intro entries
    induction entries with
    | nil =>
      rintro cache - (⟨newer, -⟩ | ⟨newer, ⟨older, same, held⟩, -⟩)
      · simp [insertAll, get, newer]
      · simp [insertAll, get, newer, same, held]
    | cons first rest ih =>
      intro cache others state
      have apart : destination ≠ first.1 := (others first List.mem_cons_self).symm
      refine ih (cache.insert first.1 first.2)
        (fun later member => others later (List.mem_cons_of_mem _ member)) ?_
      rw [List.length_cons] at state
      obtain ⟨free, shape⟩ | ⟨full, shape⟩ := insert_cases cache first.1 first.2 <;> rw [shape]
      · rcases state with ⟨newer, few⟩ | ⟨newer, older, few⟩
        · -- The entry stays in the newer generation.
          exact .inl ⟨(AList.lookup_insert_ne apart).trans newer, by
            show rest.length ≤ cache.capacity
            omega⟩
        · -- The entry stays in the older generation, and the newer one has room left.
          refine .inr ⟨(AList.lookup_insert_ne apart).trans newer, older, ?_⟩
          show Table.size (cache.newer.insert first.1 first.2) + rest.length ≤ cache.capacity
          rw [Table.size_insert]
          split <;> omega
      · rcases state with ⟨newer, few⟩ | ⟨newer, older, few⟩
        · -- The full generation turns into the older one, with the entry in it.
          refine .inr ⟨(AList.lookup_insert_ne apart).trans rfl, ⟨cache.newer, rfl, newer⟩, ?_⟩
          show Table.size ((∅ : Table AddressHash AnnounceEntry).insert first.1 first.2) +
            rest.length ≤ cache.capacity
          rw [Table.size_insert, if_neg (AList.notMem_empty _)]
          simpa [Table.size, Nat.add_comm] using few
        · -- A generation with that much room left is not full.
          omega
  exact carried entries cache others (.inl ⟨here, few⟩)

/-- Of entries that go into the archive together, and are no more than it holds, each can be got. -/
theorem get_insertAll {entries : List (AddressHash × AnnounceEntry)}
    (member : (destination, entry) ∈ entries) (distinct : (entries.map (·.1)).Nodup)
    (few : entries.length ≤ cache.capacity) :
    (cache.insertAll entries).get destination = some entry := by
  -- The entries before it do not matter once it is inserted, and those after it are few.
  obtain ⟨front, back, rfl⟩ := List.append_of_mem member
  have parted : cache.insertAll (front ++ (destination, entry) :: back) =
      ((cache.insertAll front).insert destination entry).insertAll back := by
    unfold insertAll
    rw [List.foldl_append, List.foldl_cons]
  rw [parted]
  refine @get_insertAll_newer _ _ _ back ?_ ?_ ?_
  · obtain ⟨-, shape⟩ | ⟨-, shape⟩ := insert_cases (cache.insertAll front) destination entry <;>
    · rw [shape]
      exact AList.lookup_insert _
  · rw [List.map_append, List.map_cons] at distinct
    have apart := (List.nodup_cons.mp (List.nodup_append.mp distinct).2.1).1
    exact fun later among same => apart (same ▸ List.mem_map_of_mem (f := (·.1)) among)
  · rw [insert_capacity, insertAll_capacity]
    rw [List.length_append, List.length_cons] at few
    omega

end AnnounceCache

namespace AnnounceTable

variable {table : AnnounceTable} {now : Instant} {random randomResponse : AddressHash → UInt64}
variable {transportId destination : AddressHash} {entry : AnnounceEntry}

/-- Archiving takes exactly the listed keys out of the map. -/
private theorem archive_lookup (keys : List AddressHash)
    (state : Table AddressHash AnnounceEntry × AnnounceCache) (key : AddressHash) :
    (keys.foldl archive state).1.lookup key = if key ∈ keys then none else state.1.lookup key := by
  induction keys generalizing state with
  | nil => simp
  | cons first rest ih =>
    rw [List.foldl_cons, ih]
    -- One key is taken out, or was not there.
    have taken : (archive state first).1.lookup key =
        if key = first then none else state.1.lookup key := by
      unfold archive
      split
      · split
        · rename_i same
          exact same ▸ AList.lookup_erase _ _
        · rename_i apart
          exact AList.lookup_erase_ne apart
      · rename_i absent
        split
        · rename_i same
          exact same ▸ absent
        · rfl
    rw [taken]
    by_cases later : key ∈ rest
    · simp [later]
    · by_cases same : key = first <;> simp [later, same]

/-- What is archived for distinct keys are their entries, in the order of the keys. -/
private theorem archive_cache {keys : List AddressHash} (distinct : keys.Nodup)
    (state : Table AddressHash AnnounceEntry × AnnounceCache) :
    (keys.foldl archive state).2 =
      state.2.insertAll (keys.filterMap fun key => (state.1.lookup key).map (key, ·)) := by
  -- The keys are distinct, so taking one out leaves the entries of the others.
  induction keys generalizing state with
  | nil => rfl
  | cons first rest ih =>
    obtain ⟨apart, distinct⟩ := List.nodup_cons.mp distinct
    have others : rest.filterMap (fun key => ((archive state first).1.lookup key).map (key, ·)) =
        rest.filterMap fun key => (state.1.lookup key).map (key, ·) := by
      refine List.filterMap_congr fun key member => ?_
      have elsewhere : key ≠ first := fun same => apart (same ▸ member)
      have kept := archive_lookup [first] state key
      rw [List.foldl_cons, List.foldl_nil, if_neg (by simpa using elsewhere)] at kept
      rw [kept]
    rw [List.foldl_cons, ih distinct, others]
    unfold archive
    cases found : state.1.lookup first with
    | none => simp only [List.filterMap_cons, found, Option.map_none]
    | some announce =>
      simp only [List.filterMap_cons, found, Option.map_some]
      rfl

/-- The keys that a sweep completes. -/
private def completedKeys (table : AnnounceTable) (now : Instant) (random : AddressHash → UInt64)
    (transportId : AddressHash) : List AddressHash :=
  (table.map.entries.filter fun entry =>
    (table.sweepAnnounce now random transportId entry.1 entry.2).1 = .completed).map (·.1)

/-- An announce is completed when it is spent and no response for it is pending. -/
private theorem sweepAnnounce_completed :
    (table.sweepAnnounce now random transportId destination entry).1 = .completed ↔
      destination ∉ table.responses ∧ entry.Spent := by
  -- An announce whose response is pending is not swept at all.
  unfold sweepAnnounce
  split
  · rename_i pending
    simp [pending]
  · rename_i free
    rw [AnnounceEntry.retransmit_completed, and_iff_right free]

/-- So its key is collected. -/
private theorem mem_completedKeys : destination ∈ table.completedKeys now random transportId ↔
    ∃ entry, table.map.lookup destination = some entry ∧ destination ∉ table.responses ∧
      entry.Spent := by
  unfold completedKeys
  simp only [List.mem_map, List.mem_filter, decide_eq_true_eq]
  constructor
  · rintro ⟨⟨key, entry⟩, ⟨member, done⟩, rfl⟩
    exact ⟨entry, AList.mem_lookup_iff.mpr member, sweepAnnounce_completed.mp done⟩
  · rintro ⟨entry, found, free, spent⟩
    exact ⟨⟨destination, entry⟩, ⟨AList.mem_lookup_iff.mp found,
      sweepAnnounce_completed.mpr ⟨free, spent⟩⟩, rfl⟩

/-- No key is completed twice. -/
private theorem completedKeys_nodup : (table.completedKeys now random transportId).Nodup :=
  List.Nodup.sublist (List.Sublist.map _ List.filter_sublist) table.map.nodupKeys

/-- What a sweep sends are the due announces that no response holds back, and the due responses. -/
theorem toRetransmit_sent :
    (table.toRetransmit now random randomResponse transportId).1 =
      (table.map.entries.filterMap fun entry =>
        if entry.1 ∉ table.responses ∧ entry.2.Due now then
          some (entry.2.alwaysRetransmit transportId) else none) ++
      table.responses.entries.filterMap fun entry =>
        if entry.2.Due now then some (entry.2.alwaysRetransmit transportId) else none := by
  -- Each of the two tables is swept on its own, and both are told by the entries that are due.
  refine congrArg₂ (· ++ ·) (List.filterMap_congr fun entry _ => ?_)
    (List.filterMap_congr fun entry _ => AnnounceEntry.retransmit_message)
  unfold sweepAnnounce
  split
  · rename_i pending
    exact (if_neg fun both => both.1 pending).symm
  · rename_i free
    rw [AnnounceEntry.retransmit_message]
    exact if_congr (by rw [and_iff_right free]) rfl rfl

/-- A sweep leaves the announces that wait or were sent, and takes the spent ones. -/
theorem toRetransmit_map :
    (table.toRetransmit now random randomResponse transportId).2.map.lookup destination =
      (table.map.lookup destination).bind fun entry =>
        if destination ∈ table.responses then some entry
        else if entry.Spent then none
        else some (entry.retransmit now (random destination) transportId).2 := by
  -- The announces are swept first, and the completed keys are taken out after that.
  have left := archive_lookup (table.completedKeys now random transportId)
    (table.map.mapValues fun destination entry =>
      (table.sweepAnnounce now random transportId destination entry).2,
      table.cache.prune now ANNOUNCE_CACHE_MAX_AGE) destination
  refine Eq.trans left ?_
  rw [Table.lookup_mapValues]
  by_cases completed : destination ∈ table.completedKeys now random transportId
  · obtain ⟨entry, found, free, spent⟩ := mem_completedKeys.mp completed
    rw [if_pos completed, found, Option.bind_some, if_neg free, if_pos spent]
  · rw [if_neg completed]
    cases found : table.map.lookup destination with
    | none => rfl
    | some entry =>
      rw [Option.map_some, Option.bind_some]
      unfold sweepAnnounce
      -- The key was not completed, so without a response the entry is not spent.
      by_cases pending : destination ∈ table.responses
      · rw [if_pos pending, if_pos pending]
      · rw [if_neg pending, if_neg pending,
          if_neg fun spent => completed (mem_completedKeys.mpr ⟨entry, found, pending, spent⟩)]

/-- A sweep leaves the responses that were not sent. -/
theorem toRetransmit_responses :
    (table.toRetransmit now random randomResponse transportId).2.responses.lookup destination =
      ((table.responses.lookup destination).map fun entry =>
        (entry.retransmit now (randomResponse destination) transportId).2).filter
          fun entry => entry.retries = 0 := by
  -- The responses are swept, and those that were sent have a retry.
  have left := Table.lookup_retain (fun _ entry => decide (entry.retries = 0))
    (table.responses.mapValues fun destination entry =>
      (entry.retransmit now (randomResponse destination) transportId).2) destination
  exact left.trans (by rw [Table.lookup_mapValues])

/-- The announces that a sweep completes, with their destinations. -/
def spentAnnounces (table : AnnounceTable) : List (AddressHash × AnnounceEntry) :=
  (table.map.entries.filter fun entry => entry.1 ∉ table.responses ∧ entry.2.Spent).map fun entry =>
    (entry.1, entry.2)

/-- They are those that are spent while no response is pending. -/
theorem mem_spentAnnounces : (destination, entry) ∈ table.spentAnnounces ↔
    table.map.lookup destination = some entry ∧ destination ∉ table.responses ∧ entry.Spent := by
  simp only [spentAnnounces, List.mem_map, List.mem_filter, decide_eq_true_eq, Prod.mk.injEq]
  constructor
  · rintro ⟨⟨key, held⟩, ⟨member, both⟩, rfl, rfl⟩
    exact ⟨AList.mem_lookup_iff.mpr member, both⟩
  · intro ⟨found, both⟩
    exact ⟨⟨destination, entry⟩, ⟨AList.mem_lookup_iff.mp found, both⟩, rfl, rfl⟩

/-- No destination is among them twice. -/
theorem spentAnnounces_nodup : (table.spentAnnounces.map (·.1)).Nodup := by
  -- Their destinations are keys of the map.
  unfold spentAnnounces
  rw [List.map_map]
  exact List.Nodup.sublist (List.Sublist.map _ List.filter_sublist) table.map.nodupKeys

/-- What is archived for the completed keys are the spent announces, which the sweep did not change. -/
private theorem archived_eq :
    (table.completedKeys now random transportId).filterMap (fun key =>
      ((table.map.mapValues fun destination entry =>
        (table.sweepAnnounce now random transportId destination entry).2).lookup key).map (key, ·)) =
      table.spentAnnounces := by
  -- The keys are completed for the same reason that the announces are listed.
  have same : table.map.entries.filter (fun entry =>
        (table.sweepAnnounce now random transportId entry.1 entry.2).1 = .completed) =
      table.map.entries.filter fun entry => entry.1 ∉ table.responses ∧ entry.2.Spent :=
    List.filter_congr fun entry _ => decide_eq_decide.mpr sweepAnnounce_completed
  unfold completedKeys spentAnnounces
  rw [List.filterMap_map, same, ← List.filterMap_eq_map]
  refine List.filterMap_congr fun entry member => ?_
  obtain ⟨held, listed⟩ := List.mem_filter.mp member
  obtain ⟨free, spent⟩ := of_decide_eq_true listed
  have found : table.map.lookup entry.1 = some entry.2 := AList.mem_lookup_iff.mpr held
  -- A spent announce is not due, so the sweep leaves it as it is.
  have idle : (entry.2.retransmit now (random entry.1) transportId).2 = entry.2 :=
    congrArg Prod.snd (AnnounceEntry.retransmit_idle fun due =>
      spent.elim (Nat.not_le.mpr due.1) (Nat.not_le.mpr due.2.1))
  simp only [Function.comp, Table.lookup_mapValues, found, Option.map_some, sweepAnnounce, free, if_false,
    idle]

/-- What a sweep completes goes into the pruned archive. -/
theorem toRetransmit_archives :
    (table.toRetransmit now random randomResponse transportId).2.cache =
      (table.cache.prune now ANNOUNCE_CACHE_MAX_AGE).insertAll table.spentAnnounces := by
  refine (archive_cache completedKeys_nodup _).trans ?_
  rw [archived_eq]

/-- It is archived once for each destination. -/
theorem toRetransmit_cache : ∃ archived,
    (table.toRetransmit now random randomResponse transportId).2.cache =
        (table.cache.prune now ANNOUNCE_CACHE_MAX_AGE).insertAll archived ∧
      (archived.map (·.1)).Nodup ∧
      ∀ destination entry, (destination, entry) ∈ archived ↔
        table.map.lookup destination = some entry ∧ destination ∉ table.responses ∧ entry.Spent :=
  ⟨_, toRetransmit_archives, spentAnnounces_nodup, fun _ _ => mem_spentAnnounces⟩

/-- An echo changes nothing, takes the announce of its destination away, or is counted. -/
theorem echoReceived_cases {profile : Profile} {hops : UInt8} {removed : Bool} {after : AnnounceTable}
    (handled : table.echoReceived profile now destination hops = .ok (removed, after)) :
    after = table ∨
      removed = true ∧ after = { table with map := table.map.erase destination } ∨
      ∃ entry, table.map.lookup destination = some entry ∧
        after = { table with map := table.map.insert destination {
          entry with localRebroadcasts := entry.localRebroadcasts + 1 } } := by
  unfold echoReceived at handled
  split at handled
  · exact .inl (Prod.mk.inj (Except.ok.inj handled)).2.symm
  · rename_i entry found
    split at handled
    · split at handled
      · -- The announce came back at the hop count it was sent with.
        dsimp only at handled
        split at handled
        · obtain ⟨rfl, rfl⟩ := Prod.mk.inj (Except.ok.inj handled)
          exact .inr (.inl ⟨rfl, rfl⟩)
        · exact .inr (.inr ⟨entry, found, (Prod.mk.inj (Except.ok.inj handled)).2.symm⟩)
      · -- Or it came back one hop further, where it is taken away or left.
        obtain ⟨next, -, done⟩ := bind_eq_ok.mp handled
        split at done
        · obtain ⟨rfl, rfl⟩ := Prod.mk.inj (Except.ok.inj done)
          exact .inr (.inl ⟨rfl, rfl⟩)
        · exact .inl (Prod.mk.inj (Except.ok.inj done)).2.symm
    · exact .inl (Prod.mk.inj (Except.ok.inj handled)).2.symm

end AnnounceTable

end Reticulum
