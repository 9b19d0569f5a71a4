import ReticulumSdk.Transport.NodeCallLaws

/-! The archive of announces sent out again: how often each destination is among the messages. -/

namespace Reticulum

namespace AnnounceCache

variable {cache : AnnounceCache} {destination : AddressHash} {entry : AnnounceEntry}

/-- The generation that is behind the one the next entry goes into. -/
def leftBehind (cache : AnnounceCache) : Table AddressHash AnnounceEntry :=
  if cache.newer.size ≥ cache.capacity then cache.newer else cache.older.getD ∅

/-- Entries go into the archive one by one, and none is left behind in the older generation. -/
def ArchivesFresh (cache : AnnounceCache) : List (AddressHash × AnnounceEntry) → Prop
  | [] => True
  | entry :: rest =>
    entry.1 ∉ cache.leftBehind ∧ (cache.insert entry.1 entry.2).ArchivesFresh rest

/-- No destination is in both generations. -/
def Apart (cache : AnnounceCache) : Prop :=
  ∀ destination older, cache.older = some older → destination ∈ cache.newer → destination ∉ older

/-- An empty archive has nothing in two places. -/
theorem new_apart {now : Instant} {capacity : Nat} : (new now capacity).Apart := by
  intro destination older same
  cases same

/-- An entry that is not left behind is in the newer generation only. -/
theorem Apart.insert (apart : cache.Apart) (fresh : destination ∉ cache.leftBehind) :
    (cache.insert destination entry).Apart := by
  obtain ⟨free, shape⟩ | ⟨full, shape⟩ := insert_cases cache destination entry <;> rw [shape]
  · -- The older generation stays.
    intro other older same member
    rcases (AList.mem_insert _).mp member with rfl | before
    · rw [leftBehind, if_neg (Nat.not_le.mpr free)] at fresh
      rw [show cache.older = some older from same, Option.getD_some] at fresh
      exact fresh
    · exact apart other older same before
  · -- The newer generation becomes the older one, and the entry is alone in the new one.
    intro other older same member
    obtain rfl := Option.some.inj same
    rcases (AList.mem_insert _).mp member with rfl | before
    · rw [leftBehind, if_pos full] at fresh
      exact fresh
    · cases before

/-- So are entries that are not left behind when their turn comes. -/
theorem Apart.insertAll (apart : cache.Apart) {entries : List (AddressHash × AnnounceEntry)}
    (fresh : cache.ArchivesFresh entries) : (cache.insertAll entries).Apart := by
  -- Each of them is new to both generations when it is inserted.
  induction entries generalizing cache with
  | nil => exact apart
  | cons first rest ih => exact ih (apart.insert fresh.1) fresh.2

/-- Pruning only takes entries away. -/
theorem Apart.prune (apart : cache.Apart) {now : Instant} {maxAge : Duration} :
    (cache.prune now maxAge).Apart := by
  -- What is in a generation that was swept was in it before.
  have smaller : ∀ (recent : AddressHash → AnnounceEntry → Bool)
      (held : Table AddressHash AnnounceEntry) (key : AddressHash), key ∈ held.retain recent → key ∈ held := by
    intro recent held key member
    obtain ⟨value, found⟩ := Option.isSome_iff_exists.mp (AList.lookup_isSome.mpr member)
    rw [Table.lookup_retain] at found
    exact Table.mem_of_lookup (Option.filter_eq_some_iff.mp found).1
  unfold AnnounceCache.prune
  split
  · exact apart
  · intro other older same newer behind
    obtain ⟨before, shape, rfl⟩ := Option.map_eq_some_iff.mp same
    exact apart other before shape (smaller _ _ _ newer) (smaller _ _ _ behind)

end AnnounceCache

namespace AnnounceTable

variable {table after : AnnounceTable} {transportId destination : AddressHash}

/-- The messages for one generation, with the destinations that are archived there. -/
def namedMessages (table : AnnounceTable) (transportId : AddressHash)
    (generation : Table AddressHash AnnounceEntry) : List (AddressHash × TxMessage) :=
  generation.entries.filterMap fun entry =>
    if entry.1 ∈ table.responses then none
    else some (entry.1, entry.2.alwaysRetransmit transportId)

/-- The messages for both, in the order they are sent. -/
def archiveMessages (table : AnnounceTable) (transportId : AddressHash) : List (AddressHash × TxMessage) :=
  table.namedMessages transportId table.cache.newer ++
    (table.cache.older.map (table.namedMessages transportId)).getD []

/-- Without the destinations, these are the messages of `to_retransmit_old`. -/
theorem archiveMessages_snd :
    (table.archiveMessages transportId).map (·.2) = table.toRetransmitOld transportId := by
  have one : ∀ generation, (table.namedMessages transportId generation).map (·.2) =
      table.oldMessages transportId generation := by
    intro generation
    unfold namedMessages oldMessages
    -- An entry is left out of both for the same reason.
    induction generation.entries with
    | nil => rfl
    | cons first rest ih =>
      by_cases pending : first.1 ∈ table.responses <;> simp [pending, ih]
  unfold archiveMessages toRetransmitOld
  rw [List.map_append, one]
  cases table.cache.older with
  | none => rfl
  | some older => exact congrArg _ (one older)

/-- The messages that are sent for a destination. -/
def messagesFor (table : AnnounceTable) (transportId destination : AddressHash) : List TxMessage :=
  ((table.archiveMessages transportId).filter fun named => named.1 = destination).map (·.2)

/-- No response holds the destination back, and it is sent as often as a generation holds it. -/
theorem messagesFor_eq : table.messagesFor transportId destination =
    if destination ∈ table.responses then []
    else ((table.cache.newer.lookup destination).toList ++
      (table.cache.older.bind (·.lookup destination)).toList).map
        (·.alwaysRetransmit transportId) := by
  -- In one generation a destination is at most once.
  have one : ∀ generation, ((table.namedMessages transportId generation).filter fun named =>
      named.1 = destination).map (·.2) = if destination ∈ table.responses then []
        else (generation.lookup destination).toList.map (·.alwaysRetransmit transportId) := by
    intro generation
    have found := Table.filter_filterMap
      (fun key entry => if key ∈ table.responses then none
        else some (key, AnnounceEntry.alwaysRetransmit entry transportId))
      (fun named => decide (named.1 = destination)) generation destination
      (by
        intro other value collected _ kept
        split at kept
        · cases kept
        · obtain rfl := Option.some.inj kept
          rfl)
    unfold namedMessages
    rw [found]
    cases generation.lookup destination with
    | none => simp
    | some entry => by_cases pending : destination ∈ table.responses <;> simp [pending]
  unfold messagesFor archiveMessages
  rw [List.filter_append, List.map_append, one]
  cases table.cache.older with
  | none => by_cases pending : destination ∈ table.responses <;> simp [pending]
  | some older =>
    rw [Option.map_some, Option.getD_some, one]
    by_cases pending : destination ∈ table.responses <;> simp [pending]

/-- A destination is sent at most once, and what is sent is the announce that is got for it. -/
def RebroadcastsOnce (table : AnnounceTable) (transportId : AddressHash) : Prop :=
  ∀ destination, table.messagesFor transportId destination = [] ∨
    ∃ entry, table.cache.get destination = some entry ∧
      table.messagesFor transportId destination = [entry.alwaysRetransmit transportId]

/-- That is so exactly when what is in both generations is held back by a response. -/
theorem rebroadcastsOnce_iff : table.RebroadcastsOnce transportId ↔
    ∀ destination older, table.cache.older = some older → destination ∈ table.cache.newer →
      destination ∈ older → destination ∈ table.responses := by
  constructor
  · intro once destination older same newer behind
    by_contra free
    -- There are two messages, one for each generation.
    obtain ⟨first, foundFirst⟩ := Option.isSome_iff_exists.mp (AList.lookup_isSome.mpr newer)
    obtain ⟨second, foundSecond⟩ := Option.isSome_iff_exists.mp (AList.lookup_isSome.mpr behind)
    have two := @messagesFor_eq table transportId destination
    rw [if_neg free, foundFirst, same, Option.bind_some, foundSecond] at two
    rcases once destination with none | ⟨entry, -, single⟩
    · exact absurd (two.symm.trans none) (by simp)
    · exact absurd (two.symm.trans single) (by simp)
  · intro held destination
    rw [messagesFor_eq]
    by_cases pending : destination ∈ table.responses
    · exact .inl (if_pos pending)
    · rw [if_neg pending, AnnounceCache.get]
      cases newer : table.cache.newer.lookup destination with
      | none =>
        -- The older generation alone decides.
        cases behind : table.cache.older.bind (·.lookup destination) with
        | none => exact .inl rfl
        | some entry => exact .inr ⟨entry, rfl, rfl⟩
      | some entry =>
        -- The older generation has nothing, since the newer one has it.
        refine .inr ⟨entry, rfl, ?_⟩
        cases behind : table.cache.older.bind (·.lookup destination) with
        | none => rfl
        | some second =>
          obtain ⟨older, same, found⟩ := Option.bind_eq_some_iff.mp behind
          exact absurd (held destination older same (Table.mem_of_lookup newer)
            (Table.mem_of_lookup found)) pending

/-- What a sweep archives is not left behind in the older generation; other calls archive nothing. -/
def ArchivesFresh (table : AnnounceTable) : AnnounceCall → Prop
  | .toRetransmit now _ _ =>
    (table.cache.prune now ANNOUNCE_CACHE_MAX_AGE).ArchivesFresh table.spentAnnounces
  | _ => True

/-- A call that archives only what is not left behind keeps the generations apart. -/
theorem apart_step {profile : Profile} {exchange : AnnounceCall × AnnounceReply}
    (apart : table.cache.Apart) (step : table.Step profile transportId exchange after)
    (fresh : table.ArchivesFresh exchange.1) : after.cache.Apart := by
  obtain ⟨call, reply⟩ := exchange
  cases call with
  | add now random announce destination receivedFrom =>
    obtain ⟨-, rfl⟩ := step_add.mp step
    exact apart
  | addResponse now random destination toIface hops grace =>
    obtain ⟨-, rfl⟩ := step_addResponse.mp step
    rw [addResponse_cache]
    exact apart
  | echoReceived now destination hops =>
    obtain ⟨removed, -, handled⟩ := step_echoReceived.mp step
    -- An echo changes the map only.
    obtain rfl | ⟨-, rfl⟩ | ⟨entry, -, rfl⟩ := echoReceived_cases handled <;> exact apart
  | toRetransmit now random randomResponse =>
    obtain ⟨-, rfl⟩ := step_toRetransmit.mp step
    rw [toRetransmit_archives]
    exact apart.prune.insertAll fresh

end AnnounceTable

/--
In every run whose sweeps archive nothing that is left behind in the older generation, the archive
is sent out with at most one message for each destination, for the announce that is got for it.
-/
theorem archive_rebroadcasts_once {profile : Profile} {transportId : AddressHash} {start : Instant}
    {exchanges : List (AnnounceCall × AnnounceReply)} {reached : AnnounceTable}
    (run : Run (fun table exchange after => AnnounceTable.Step profile transportId table exchange after ∧
      table.ArchivesFresh exchange.1) (.new start) exchanges reached) :
    reached.RebroadcastsOnce transportId := by
  -- No destination comes into both generations.
  have apart : reached.cache.Apart :=
    @Run.invariant _ _ _ (·.cache.Apart)
      (fun _ _ _ apart step => AnnounceTable.apart_step apart step.1 step.2) _ _ _ run
      AnnounceCache.new_apart
  exact AnnounceTable.rebroadcastsOnce_iff.mpr fun destination older same newer behind =>
    absurd behind (apart destination older same newer)

/-- An announce of a destination, for concrete runs. -/
private def emissionOf (destination : AddressHash) : Packet :=
  { Packet.emission 1 (.sample 3 100) with destination := destination }

/-- Adding it, without a random delay. -/
private def addCall (now : Instant) (destination : AddressHash) : AnnounceCall :=
  .add now 0 (emissionOf destination) destination (.filled 5)

/-- A sweep without random delays, as a call. -/
private def sweepCall (now : Instant) : AnnounceCall := .toRetransmit now (fun _ => 0) fun _ => 0

namespace AnnounceTable

/-- The table after such a sweep. -/
private def sweep (table : AnnounceTable) (now : Instant) : AnnounceTable :=
  (table.toRetransmit now (fun _ => 0) (fun _ => 0) (.filled 9)).2

/-- A table with an announce that three sweeps sent and archived. -/
private def archivedOne : AnnounceTable :=
  ((((new 0).add 0 0 (emissionOf (.filled 1)) (.filled 1) (.filled 5)).sweep 0).sweep
    PATHFINDER_G).sweep (2 * PATHFINDER_G)

end AnnounceTable

/-- An announce that is archived once is sent once. -/
theorem archive_rebroadcasts_once_single :
    (AnnounceTable.archivedOne.toRetransmitOld (.filled 9)).length = 1 ∧
      AnnounceTable.archivedOne.RebroadcastsOnce (.filled 9) := by
  -- Nothing is archived before, so nothing is left behind.
  refine ⟨by decide, ?_⟩
  exact @archive_rebroadcasts_once .debug (.filled 9) 0
    [(addCall 0 (.filled 1), _), (sweepCall 0, _), (sweepCall PATHFINDER_G, _),
      (sweepCall (2 * PATHFINDER_G), _)] _
    (.next ⟨AnnounceTable.step_add.mpr ⟨rfl, rfl⟩, trivial⟩
      (.next ⟨AnnounceTable.step_toRetransmit.mpr ⟨rfl, rfl⟩, trivial⟩
        (.next ⟨AnnounceTable.step_toRetransmit.mpr ⟨rfl, rfl⟩, trivial⟩
          (.next ⟨AnnounceTable.step_toRetransmit.mpr ⟨rfl, rfl⟩, by decide, trivial⟩ (.done _)))))

namespace AnnounceCache

variable {cache : AnnounceCache}

/-- Distinct entries that fit beside what the newer generation holds all go there. -/
private theorem insertAll_room {entries : List (AddressHash × AnnounceEntry)}
    (fits : cache.newer.size + entries.length ≤ cache.capacity)
    (distinct : (entries.map (·.1)).Nodup) (new : ∀ entry ∈ entries, entry.1 ∉ cache.newer) :
    (cache.insertAll entries).newer.size = cache.newer.size + entries.length ∧
      ∀ destination, destination ∈ cache.newer ∨ destination ∈ entries.map (·.1) →
        destination ∈ (cache.insertAll entries).newer := by
  induction entries generalizing cache with
  | nil => exact ⟨rfl, fun destination held => held.resolve_right (by simp)⟩
  | cons first rest ih =>
    obtain ⟨apart, distinct⟩ := List.nodup_cons.mp distinct
    rw [List.length_cons] at fits
    obtain ⟨-, shape⟩ | ⟨full, -⟩ := insert_cases cache first.1 first.2
    · -- The first entry goes into the newer generation, which has room for the rest.
      have larger : (cache.insert first.1 first.2).newer.size = cache.newer.size + 1 := by
        rw [shape]
        exact (Table.size_insert _ _ _).trans (if_neg (new first List.mem_cons_self))
      have later := @ih (cache.insert first.1 first.2) (by rw [larger, insert_capacity]; omega)
        distinct
        (by
          rw [shape]
          intro entry member held
          rcases (AList.mem_insert _).mp held with same | before
          · exact apart (List.mem_map.mpr ⟨entry, member, same⟩)
          · exact new entry (List.mem_cons_of_mem _ member) before)
      refine ⟨?_, fun destination held => later.2 destination ?_⟩
      · exact later.1.trans (by rw [larger, List.length_cons]; omega)
      · rw [shape]
        rcases held with before | among
        · exact .inl ((AList.mem_insert _).mpr (.inr before))
        · rcases List.mem_cons.mp among with rfl | among
          · exact .inl ((AList.mem_insert _).mpr (.inl rfl))
          · exact .inr among
    · omega

/-- Archiving does not prune. -/
private theorem insertAll_lastPrune {entries : List (AddressHash × AnnounceEntry)} :
    (cache.insertAll entries).lastPrune = cache.lastPrune := by
  induction entries generalizing cache with
  | nil => rfl
  | cons first rest ih =>
    have kept : (cache.insert first.1 first.2).lastPrune = cache.lastPrune := by
      obtain ⟨-, shape⟩ | ⟨-, shape⟩ := insert_cases cache first.1 first.2 <;> rw [shape]
    exact ih.trans kept

end AnnounceCache

namespace AnnounceCall

/-- The call is not made for a path request. -/
def Unasked : AnnounceCall → Prop
  | .addResponse .. => False
  | _ => True

end AnnounceCall

namespace AnnounceTable

variable {table : AnnounceTable} {destinations : List AddressHash} {now due : Instant} {retries : Nat}

/-- What is queued was sent so often and waits no longer than told, and no response is pending. -/
private structure Queued (table : AnnounceTable) (destinations : List AddressHash) (retries : Nat)
    (due : Instant) : Prop where
  listed : ∀ destination, destination ∈ table.map ↔ destination ∈ destinations
  waits : ∀ destination entry, table.map.lookup destination = some entry →
    entry.retries = retries ∧ entry.localRebroadcasts = 0 ∧ entry.timeout ≤ due
  free : ∀ destination, destination ∉ table.responses

/-- The responses are none after a sweep either. -/
private theorem Queued.sweep_free (queued : table.Queued destinations retries due)
    (destination : AddressHash) : destination ∉ (table.sweep now).responses := by
  have before := AList.lookup_eq_none.mpr (queued.free destination)
  refine AList.lookup_eq_none.mp (Eq.trans toRetransmit_responses ?_)
  rw [before]
  rfl

/-- While it is too early to prune, a sweep sends what is due, and archives nothing. -/
private theorem Queued.sent (queued : table.Queued destinations retries now)
    (left : retries < LOCAL_REBROADCASTS_MAX)
    (early : now.durationSince table.cache.lastPrune < ANNOUNCE_CACHE_PRUNE_INTERVAL) :
    (table.sweep now).Queued destinations (retries + 1) (now + PATHFINDER_G) ∧
      (table.sweep now).cache = table.cache := by
  -- Every entry is due, so it is not spent.
  have swept : ∀ destination, (table.sweep now).map.lookup destination =
      (table.map.lookup destination).map fun entry =>
        { entry with retries := entry.retries + 1, timeout := now + PATHFINDER_G } := by
    intro destination
    refine Eq.trans toRetransmit_map ?_
    cases found : table.map.lookup destination with
    | none => rfl
    | some entry =>
      obtain ⟨same, echoes, ended⟩ := queued.waits destination entry found
      have unspent : ¬ (entry.retries ≥ LOCAL_REBROADCASTS_MAX ∨
          entry.localRebroadcasts ≥ LOCAL_REBROADCASTS_MAX) := by
        rw [same, echoes]
        exact not_or.mpr ⟨Nat.not_le.mpr left, by decide⟩
      rw [Option.bind_some, if_neg (queued.free destination), if_neg (show ¬ entry.Spent from unspent),
        Option.map_some, AnnounceEntry.retransmit, if_neg unspent, if_neg (Nat.not_lt.mpr ended)]
      rfl
  have none : table.spentAnnounces = [] := by
    refine List.eq_nil_iff_forall_not_mem.mpr fun listed member => ?_
    obtain ⟨found, -, spent⟩ := mem_spentAnnounces.mp member
    obtain ⟨same, echoes, -⟩ := queued.waits listed.1 listed.2 found
    rcases spent with sent | heard
    · omega
    · rw [echoes] at heard
      exact absurd heard (by decide)
  refine ⟨⟨fun destination => ?_, fun destination entry found => ?_, queued.sweep_free⟩, ?_⟩
  · rw [← queued.listed, ← AList.lookup_isSome, ← AList.lookup_isSome, swept, Option.isSome_map]
  · rw [swept] at found
    obtain ⟨before, held, rfl⟩ := Option.map_eq_some_iff.mp found
    obtain ⟨same, echoes, -⟩ := queued.waits destination before held
    exact ⟨congrArg (· + 1) same, echoes, Nat.le_refl _⟩
  · unfold sweep
    rw [toRetransmit_archives, none, AnnounceCache.prune, if_pos early]
    rfl

/-- What was sent often enough is archived by the next sweep. -/
private theorem Queued.archived (queued : table.Queued destinations LOCAL_REBROADCASTS_MAX due)
    (distinct : destinations.Nodup)
    (early : now.durationSince table.cache.lastPrune < ANNOUNCE_CACHE_PRUNE_INTERVAL) :
    (table.sweep now).Queued [] 0 now ∧
      (table.sweep now).cache = table.cache.insertAll table.spentAnnounces ∧
      (table.spentAnnounces.map (·.1)).Perm destinations := by
  have spent : ∀ destination entry, table.map.lookup destination = some entry → entry.Spent :=
    fun destination entry found => .inl (Nat.le_of_eq (queued.waits destination entry found).1.symm)
  have gone : ∀ destination, (table.sweep now).map.lookup destination = none := by
    intro destination
    refine Eq.trans toRetransmit_map ?_
    cases found : table.map.lookup destination with
    | none => rfl
    | some entry =>
      rw [Option.bind_some, if_neg (queued.free destination), if_pos (spent destination entry found)]
  refine ⟨⟨fun destination => ?_, fun destination entry found => ?_, queued.sweep_free⟩, ?_, ?_⟩
  · exact iff_of_false (AList.lookup_eq_none.mp (gone destination)) (by simp)
  · rw [gone] at found
    cases found
  · unfold sweep
    rw [toRetransmit_archives, AnnounceCache.prune, if_pos early]
  · -- Both lists are without repetition, and name what is queued.
    refine (List.perm_ext_iff_of_nodup spentAnnounces_nodup distinct).mpr fun destination => ?_
    rw [← queued.listed, List.mem_map]
    constructor
    · rintro ⟨⟨other, entry⟩, member, rfl⟩
      exact Table.mem_of_lookup (mem_spentAnnounces.mp member).1
    · intro held
      obtain ⟨entry, found⟩ := Option.isSome_iff_exists.mp (AList.lookup_isSome.mpr held)
      exact ⟨(destination, entry), mem_spentAnnounces.mpr
        ⟨found, queued.free destination, spent destination entry found⟩, rfl⟩

/-- Destinations are added, and sweeps send each announce twice and then archive it. -/
private def roundCalls (now : Instant) (destinations : List AddressHash) : List AnnounceCall :=
  destinations.map (addCall now) ++
    [sweepCall now, sweepCall (now + PATHFINDER_G), sweepCall (now + PATHFINDER_G + PATHFINDER_G)]

/-- A run over calls, whatever they answer. -/
private def Reaches (table : AnnounceTable) (calls : List AnnounceCall) (after : AnnounceTable) : Prop :=
  ∃ exchanges : List (AnnounceCall × AnnounceReply), exchanges.map (·.1) = calls ∧
    Run (Step .release (.filled 9)) table exchanges after

/-- One run after the other. -/
private theorem Reaches.append {front back : List AnnounceCall} {middle after : AnnounceTable}
    (first : table.Reaches front middle) (second : middle.Reaches back after) :
    table.Reaches (front ++ back) after := by
  obtain ⟨before, rfl, run⟩ := first
  obtain ⟨behind, rfl, rest⟩ := second
  exact ⟨before ++ behind, List.map_append, run.append rest⟩

/-- A sweep is a run of one call. -/
private theorem reaches_sweep : table.Reaches [sweepCall now] (table.sweep now) :=
  ⟨[(_, _)], rfl, .next (step_toRetransmit.mpr ⟨rfl, rfl⟩) (.done _)⟩

/-- Announces of new destinations are queued one after the other. -/
private theorem Queued.added {known : List AddressHash} (queued : table.Queued known 0 now) :
    ∃ after, table.Reaches (destinations.map (addCall now)) after ∧
      after.Queued (destinations ++ known) 0 now ∧ after.cache = table.cache := by
  induction destinations generalizing table known with
  | nil => exact ⟨table, ⟨[], rfl, .done table⟩, queued, rfl⟩
  | cons first rest ih =>
    have more : (table.add now 0 (emissionOf first) first (.filled 5)).Queued (first :: known) 0 now := by
      refine ⟨fun destination => ?_, fun destination entry found => ?_, queued.free⟩
      · rw [List.mem_cons, ← queued.listed]
        exact AList.mem_insert _
      · obtain ⟨rfl, rfl⟩ | ⟨-, before⟩ := Table.of_lookup_insert found
        · exact ⟨rfl, rfl, Nat.le_refl _⟩
        · exact queued.waits destination entry before
    obtain ⟨after, reaches, held, same⟩ := ih more
    refine ⟨after, ?_, ⟨fun destination => ?_, held.waits, held.free⟩, same⟩
    · exact Reaches.append ⟨[(_, _)], rfl, .next (step_add.mpr ⟨rfl, rfl⟩) (.done _)⟩ reaches
    · rw [held.listed]
      simp only [List.mem_append, List.mem_cons]
      exact or_left_comm.trans or_assoc.symm

/-- A reading that is soon enough after the last pruning. -/
private theorem early_of_le {later last : Instant} (before : later ≤ due)
    (early : due < last + ANNOUNCE_CACHE_PRUNE_INTERVAL) :
    later.durationSince last < ANNOUNCE_CACHE_PRUNE_INTERVAL := by
  -- The later reading is the harder one.
  have arithmetic : ∀ later due last interval : Nat, 0 < interval → later ≤ due →
      due < last + interval → later - last < interval := by omega
  exact arithmetic _ _ _ _ (by decide) before early

/-- In a round that is too short for pruning, all that is added is archived. -/
private theorem Queued.round (queued : table.Queued [] 0 now) (distinct : destinations.Nodup)
    (early : now + PATHFINDER_G + PATHFINDER_G <
      table.cache.lastPrune + ANNOUNCE_CACHE_PRUNE_INTERVAL) :
    ∃ after entries, table.Reaches (roundCalls now destinations) after ∧
      after.Queued [] 0 (now + PATHFINDER_G + PATHFINDER_G) ∧
      after.cache = table.cache.insertAll entries ∧ (entries.map (·.1)).Perm destinations := by
  obtain ⟨filled, adding, waiting, same⟩ := @Queued.added table destinations now [] queued
  rw [List.append_nil] at waiting
  rw [← same] at early
  -- Two sweeps send the announces, and the third takes them away.
  obtain ⟨once, kept⟩ := waiting.sent (by decide)
    (early_of_le ((Nat.le_add_right _ _).trans (Nat.le_add_right _ _)) early)
  rw [← kept] at early
  obtain ⟨twice, left⟩ := once.sent (by decide) (early_of_le (Nat.le_add_right _ _) early)
  rw [← left] at early
  obtain ⟨empty, shape, listed⟩ := twice.archived distinct (early_of_le (Nat.le_refl _) early)
  refine ⟨_, _, adding.append (reaches_sweep.append (reaches_sweep.append reaches_sweep)), empty, ?_,
    listed⟩
  rw [shape, left, kept, same]

/-- The calls of a round come in the order of the clock, and no path request asks for any. -/
private theorem roundCalls_plain {call : AnnounceCall} (member : call ∈ roundCalls now destinations) :
    call.Named ∧ call.Unasked ∧ now ≤ call.now ∧ call.now ≤ now + PATHFINDER_G + PATHFINDER_G := by
  rcases List.mem_append.mp member with added | swept
  · obtain ⟨destination, -, rfl⟩ := List.mem_map.mp added
    exact ⟨rfl, trivial, Nat.le_refl _, (Nat.le_add_right _ _).trans (Nat.le_add_right _ _)⟩
  · simp only [List.mem_cons, List.not_mem_nil, or_false] at swept
    obtain rfl | rfl | rfl := swept
    · exact ⟨trivial, trivial, Nat.le_refl _, (Nat.le_add_right _ _).trans (Nat.le_add_right _ _)⟩
    · exact ⟨trivial, trivial, Nat.le_add_right _ _, Nat.le_add_right _ _⟩
    · exact ⟨trivial, trivial, (Nat.le_add_right _ _).trans (Nat.le_add_right _ _), Nat.le_refl _⟩

/-- So do their readings. -/
private theorem roundCalls_sorted :
    ((roundCalls now destinations).map AnnounceCall.now).Pairwise (· ≤ ·) := by
  -- All that is added is added at once.
  have still : (destinations.map (addCall now)).map AnnounceCall.now =
      List.replicate destinations.length now := by
    rw [List.map_map, List.eq_replicate_iff]
    refine ⟨List.length_map _, fun reading member => ?_⟩
    obtain ⟨destination, -, rfl⟩ := List.mem_map.mp member
    rfl
  unfold roundCalls
  rw [List.map_append, still, List.pairwise_append]
  refine ⟨List.pairwise_replicate.mpr (.inr (Nat.le_refl _)), ?_, ?_⟩
  · simp [sweepCall, AnnounceCall.now, Nat.add_assoc]
  · intro reading first later second
    obtain rfl := List.eq_of_mem_replicate first
    obtain ⟨call, member, rfl⟩ := List.mem_map.mp second
    exact (@roundCalls_plain destinations _ call (List.mem_append_right _ member)).2.2.1

end AnnounceTable

/-- A destination with a number of two bytes, for concrete runs. -/
private def numberedHash (i : Nat) : AddressHash where
  bytes := List.replicate 14 0 ++ [UInt8.ofNat (i / 256), UInt8.ofNat (i % 256)]
  length_eq := rfl

/-- Numbers of two bytes are told apart. -/
private theorem numberedHash_inj {i j : Nat} (small : i < 65536) (less : j < 65536)
    (same : numberedHash i = numberedHash j) : i = j := by
  have ends := List.append_cancel_left (congrArg AddressHash.bytes same)
  obtain ⟨high, rest⟩ := List.cons.inj ends
  obtain ⟨low, -⟩ := List.cons.inj rest
  have highs := congrArg UInt8.toNat high
  have lows := congrArg UInt8.toNat low
  rw [UInt8.toNat_ofNat', UInt8.toNat_ofNat'] at highs lows
  omega

/-- As many destinations as a generation holds. -/
private def manyDestinations : List AddressHash :=
  (List.range ANNOUNCE_CACHE_CAPACITY).map numberedHash

private theorem manyDestinations_nodup : manyDestinations.Nodup := by
  -- All their numbers are below the capacity, which is below what two bytes can tell.
  refine List.Nodup.map_on (fun i first j second => ?_) List.nodup_range
  have small := List.mem_range.mp first
  have less := List.mem_range.mp second
  unfold ANNOUNCE_CACHE_CAPACITY at small less
  exact numberedHash_inj (by omega) (by omega)

open AnnounceTable in
/--
A generation that was filled at once becomes the older one when a destination of it is archived
again, and both announces of it are sent.
-/
theorem not_archive_rebroadcasts_once : ¬ ∀ (profile : Profile) (transportId : AddressHash)
    (start : Instant) (exchanges : List (AnnounceCall × AnnounceReply)) (reached : AnnounceTable),
    Run (AnnounceTable.Step profile transportId) (.new start) exchanges reached →
      (∀ exchange ∈ exchanges, exchange.1.Named ∧ exchange.1.Unasked) →
      (exchanges.map (·.1.now)).Pairwise (· ≤ ·) →
      reached.RebroadcastsOnce transportId := by
  intro claimed
  have empty : (AnnounceTable.new 0).Queued [] 0 0 :=
    ⟨fun _ => iff_of_false (AList.notMem_empty _) (by simp), fun _ _ found => (by cases found),
      fun _ => AList.notMem_empty _⟩
  -- The first round fills the newer generation.
  obtain ⟨full, many, filling, waiting, shape, listed⟩ := empty.round manyDestinations_nodup (by decide)
  have count : many.length = ANNOUNCE_CACHE_CAPACITY := by
    rw [← List.length_map (f := (·.1)), listed.length_eq, manyDestinations, List.length_map,
      List.length_range]
  obtain ⟨size, held⟩ := @AnnounceCache.insertAll_room (AnnounceTable.new 0).cache many
    (by rw [count]; exact Nat.le_of_eq (Nat.zero_add _))
    (listed.nodup_iff.mpr manyDestinations_nodup) fun _ _ => AList.notMem_empty _
  -- The second round archives one of its destinations again.
  have unpruned : full.cache.lastPrune = 0 := (congrArg _ shape).trans AnnounceCache.insertAll_lastPrune
  obtain ⟨turned, again, archiving, calm, behind, single⟩ :=
    waiting.round (List.nodup_singleton (numberedHash 0)) (by rw [unpruned]; decide)
  obtain ⟨⟨destination, entry⟩, rfl, rfl⟩ :=
    List.map_eq_singleton_iff.mp (List.perm_singleton.mp single)
  obtain ⟨room, -⟩ | ⟨-, older⟩ :=
    AnnounceCache.insert_cases full.cache (numberedHash 0) entry
  · rw [shape, size, AnnounceCache.insertAll_capacity, count] at room
    exact absurd room (Nat.not_lt.mpr (Nat.le_of_eq (Nat.zero_add _).symm))
  obtain ⟨exchanges, calls, run⟩ := filling.append archiving
  have plain : ∀ exchange ∈ exchanges, exchange.1.Named ∧ exchange.1.Unasked := by
    intro exchange member
    have called := List.mem_map_of_mem (f := (·.1)) member
    rw [calls] at called
    rcases List.mem_append.mp called with first | second
    · exact ⟨(roundCalls_plain first).1, (roundCalls_plain first).2.1⟩
    · exact ⟨(roundCalls_plain second).1, (roundCalls_plain second).2.1⟩
  have sorted : (exchanges.map (·.1.now)).Pairwise (· ≤ ·) := by
    have readings : exchanges.map (·.1.now) = (exchanges.map (·.1)).map AnnounceCall.now := by
      rw [List.map_map]
      rfl
    rw [readings, calls, List.map_append, List.pairwise_append]
    refine ⟨roundCalls_sorted, roundCalls_sorted, fun reading first later second => ?_⟩
    obtain ⟨call, member, rfl⟩ := List.mem_map.mp first
    obtain ⟨next, follows, rfl⟩ := List.mem_map.mp second
    exact Nat.le_trans (roundCalls_plain member).2.2.2 (roundCalls_plain follows).2.2.1
  have once := rebroadcastsOnce_iff.mp (claimed .release (.filled 9) 0 exchanges turned run plain sorted)
  refine calm.free (numberedHash 0) (once (numberedHash 0) full.cache.newer ?_ ?_ ?_)
  · exact congrArg AnnounceCache.older (behind.trans older)
  · rw [behind.trans older]
    exact (AList.mem_insert _).mpr (.inl rfl)
  · rw [shape]
    refine held _ (.inr (listed.mem_iff.mpr ?_))
    exact List.mem_map_of_mem (List.mem_range.mpr (by decide))

end Reticulum
