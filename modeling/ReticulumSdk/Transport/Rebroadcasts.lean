import ReticulumSdk.Transport.AnnounceRuns
import ReticulumSdk.Transport.PathTable

/-! How often and when an announce is passed on between two additions, and where it goes then. -/

namespace Reticulum

/-- The message passes on an announce of a destination. -/
def TxMessage.isRebroadcast (message : TxMessage) (destination : AddressHash) : Bool :=
  match message.txType with
  | .broadcastFrom _ => message.packet.destination = destination
  | _ => false

/-- The messages that pass on an announce of a destination. -/
def rebroadcasts (destination : AddressHash) (messages : List TxMessage) : List TxMessage :=
  messages.filter (·.isRebroadcast destination)

/-- The times at which a run passes on the announce of a destination. -/
def rebroadcastTimes (destination : AddressHash)
    (exchanges : List (AnnounceCall × AnnounceReply)) : List Instant :=
  exchanges.flatMap fun exchange =>
    (rebroadcasts destination exchange.2.sent).map fun _ => exchange.1.now

namespace AnnounceTable

/-- An entry went into the archive, and is got from it unless too many went with it. -/
def Archives (table after : AnnounceTable) (now : Instant) (destination : AddressHash)
    (entry : AnnounceEntry) : Prop :=
  ∃ archived, after.cache = (table.cache.prune now ANNOUNCE_CACHE_MAX_AGE).insertAll archived ∧
    (destination, entry) ∈ archived ∧
    (archived.length ≤ ANNOUNCE_CACHE_CAPACITY → after.cache.get destination = some entry)

/-- After a call an announce is still queued, or was ended by an echo, or went into the archive. -/
def KeepsOrEnds (table : AnnounceTable) (exchange : AnnounceCall × AnnounceReply)
    (after : AnnounceTable) (destination : AddressHash) (entry : AnnounceEntry) : Prop :=
  (∃ entry', after.map.lookup destination = some entry' ∧ entry'.packet = entry.packet) ∨
    (∃ now hops, exchange = (.echoReceived now destination hops, .told true)) ∨
    table.Archives after exchange.1.now destination entry

/-- How often the announce of a destination may still be sent. -/
private def budget (table : AnnounceTable) (destination : AddressHash) : Nat :=
  (table.map.lookup destination).elim 0 fun entry => LOCAL_REBROADCASTS_MAX - entry.retries

/-- The announce of a destination is not sent before some time. -/
private def NotBefore (table : AnnounceTable) (destination : AddressHash) (earliest : Instant) : Prop :=
  ∀ entry, table.map.lookup destination = some entry → earliest ≤ entry.timeout

variable {table after : AnnounceTable} {destination transportId : AddressHash} {profile : Profile}
variable {now earliest : Instant} {random randomResponse : AddressHash → UInt64}
variable {exchange : AnnounceCall × AnnounceReply}

/-- A sweep passes on the announce of a destination if it is due and no response holds it back. -/
theorem toRetransmit_rebroadcasts (sound : table.Sound) :
    rebroadcasts destination (table.toRetransmit now random randomResponse transportId).1 =
      ((table.map.lookup destination).bind fun entry =>
        if destination ∉ table.responses ∧ entry.Due now then
          some (entry.alwaysRetransmit transportId) else none).toList := by
  rw [toRetransmit_sent, rebroadcasts, List.filter_append]
  -- A response is sent to one interface, so only the announces pass the test.
  have answers : (table.responses.entries.filterMap fun entry =>
      if entry.2.Due now then some (entry.2.alwaysRetransmit transportId) else none).filter
        (·.isRebroadcast destination) = [] := by
    refine List.filter_eq_nil_iff.mpr fun message member => ?_
    obtain ⟨⟨other, entry⟩, listed, sent⟩ := List.mem_filterMap.mp member
    obtain rfl := Option.some.inj (Option.ite_none_right_eq_some.mp sent).2
    obtain ⟨iface, toIface⟩ := Option.isSome_iff_exists.mp
      (sound.pending other entry (AList.mem_lookup_iff.mpr listed)).2.1
    simp [TxMessage.isRebroadcast, AnnounceEntry.alwaysRetransmit, toIface]
  rw [answers, List.append_nil]
  refine Table.filter_filterMap (fun other (entry : AnnounceEntry) =>
    if other ∉ table.responses ∧ entry.Due now then some (entry.alwaysRetransmit transportId) else none)
    (·.isRebroadcast destination) table.map destination fun other entry message found sent => ?_
  -- An announce is sent to all others, and under its own destination.
  obtain ⟨named, broadcast⟩ := sound.queued other entry found
  obtain rfl := Option.some.inj (Option.ite_none_right_eq_some.mp sent).2
  simp [TxMessage.isRebroadcast, AnnounceEntry.alwaysRetransmit, broadcast, relayedAnnounce, named]

/-- What one call does to the announce of a destination it does not add: at most it is sent once. -/
private theorem step_announce (sound : table.Sound)
    (step : table.Step profile transportId exchange after) (other : ¬ exchange.1.Adds destination) :
    (rebroadcasts destination exchange.2.sent = [] ∧
      ∀ entry', after.map.lookup destination = some entry' →
        ∃ entry, table.map.lookup destination = some entry ∧ entry'.packet = entry.packet ∧
          entry'.retries = entry.retries ∧ entry'.timeout = entry.timeout) ∨
    ∃ entry timeout, table.map.lookup destination = some entry ∧ destination ∉ table.responses ∧
      entry.Due exchange.1.now ∧
      rebroadcasts destination exchange.2.sent = [entry.alwaysRetransmit transportId] ∧
      exchange.1.now + PATHFINDER_G ≤ timeout ∧
      after.map.lookup destination =
        some { entry with retries := entry.retries + 1, timeout := timeout } := by
  obtain ⟨call, reply⟩ := exchange
  cases call with
  | add now random announce added receivedFrom =>
    obtain ⟨rfl, rfl⟩ := step_add.mp step
    refine .inl ⟨rfl, fun entry' found => ?_⟩
    -- The announce that is added is one of another destination.
    obtain ⟨rfl, -⟩ | ⟨-, before⟩ := Table.of_lookup_insert found
    · exact absurd rfl other
    · exact ⟨entry', before, rfl, rfl, rfl⟩
  | addResponse now random asked toIface hops grace =>
    obtain ⟨rfl, rfl⟩ := step_addResponse.mp step
    refine .inl ⟨rfl, fun entry' found => ⟨entry', ?_, rfl, rfl, rfl⟩⟩
    -- Responses are not kept in the map.
    rw [← found, addResponse_map]
  | echoReceived now echoed hops =>
    obtain ⟨removed, rfl, handled⟩ := step_echoReceived.mp step
    refine .inl ⟨rfl, fun entry' found => ?_⟩
    -- An echo counts itself, and neither a retry nor a later timeout.
    obtain rfl | ⟨-, rfl⟩ | ⟨entry, heard, rfl⟩ := echoReceived_cases handled
    · exact ⟨entry', found, rfl, rfl, rfl⟩
    · exact ⟨entry', (Table.of_lookup_erase found).2, rfl, rfl, rfl⟩
    · obtain ⟨rfl, rfl⟩ | ⟨-, before⟩ := Table.of_lookup_insert found
      · exact ⟨entry, heard, rfl, rfl, rfl⟩
      · exact ⟨entry', before, rfl, rfl, rfl⟩
  | toRetransmit now random randomResponse =>
    obtain ⟨rfl, rfl⟩ := step_toRetransmit.mp step
    have sent := @toRetransmit_rebroadcasts _ destination transportId now random randomResponse sound
    have left := @toRetransmit_map table now random randomResponse transportId destination
    cases found : table.map.lookup destination with
    | none =>
      rw [found] at sent left
      refine .inl ⟨sent, fun entry' here => ?_⟩
      cases left.symm.trans here
    | some entry =>
      rw [found, Option.bind_some] at sent left
      by_cases free : destination ∉ table.responses ∧ entry.Due now
      · -- No response holds it back and it is due, so it is sent once and its timeout moves.
        obtain ⟨timeout, later, message⟩ := @AnnounceEntry.retransmit_due _ _
          (random destination) transportId free.2
        have unspent : ¬ entry.Spent := fun spent =>
          spent.elim (Nat.not_le.mpr free.2.1) (Nat.not_le.mpr free.2.2.1)
        rw [if_pos free] at sent
        rw [if_neg free.1, if_neg unspent, message] at left
        exact .inr ⟨entry, timeout, rfl, free.1, free.2, sent, later, left⟩
      · -- It is not sent, and what is left of it is unchanged.
        rw [if_neg free] at sent
        refine .inl ⟨sent, fun entry' here => ?_⟩
        rw [left] at here
        split at here
        · exact Option.some.inj here ▸ ⟨entry, rfl, rfl, rfl, rfl⟩
        · rename_i waiting
          split at here
          · cases here
          · rw [AnnounceEntry.retransmit_idle fun due => free ⟨waiting, due⟩] at here
            exact Option.some.inj here ▸ ⟨entry, rfl, rfl, rfl, rfl⟩

/-- A message costs one of the retries that are left, and the next one waits for its grace. -/
private theorem step_budget (sound : table.Sound)
    (step : table.Step profile transportId exchange after) (other : ¬ exchange.1.Adds destination)
    (notBefore : table.NotBefore destination earliest) :
    (rebroadcasts destination exchange.2.sent = [] ∧
      after.budget destination ≤ table.budget destination ∧ after.NotBefore destination earliest) ∨
    (∃ message, rebroadcasts destination exchange.2.sent = [message]) ∧
      after.budget destination + 1 ≤ table.budget destination ∧ earliest ≤ exchange.1.now ∧
      after.NotBefore destination (exchange.1.now + PATHFINDER_G) := by
  unfold budget
  rcases step_announce sound step other with
    ⟨silent, kept⟩ | ⟨entry, timeout, found, -, due, sent, later, left⟩
  · -- Nothing is sent, and what is left in the map has as many retries and its old timeout.
    refine .inl ⟨silent, ?_, fun entry' here => ?_⟩
    · cases here : after.map.lookup destination with
      | none => exact Nat.zero_le _
      | some entry' =>
        obtain ⟨entry, found, -, retries, -⟩ := kept entry' here
        rw [found, Option.elim_some, Option.elim_some, retries]
    · obtain ⟨entry, found, -, -, timeout⟩ := kept entry' here
      exact timeout ▸ notBefore entry found
  · -- It is sent, and a due entry had a retry left.
    have few := due.1
    refine .inr ⟨⟨_, sent⟩, ?_, Nat.le_trans (notBefore entry found) due.2.2, fun entry' here => ?_⟩
    · rw [left, found, Option.elim_some, Option.elim_some]
      show LOCAL_REBROADCASTS_MAX - (entry.retries + 1) + 1 ≤ LOCAL_REBROADCASTS_MAX - entry.retries
      omega
    · obtain rfl := Option.some.inj (left.symm.trans here)
      exact later

/-- Along a run that does not add an announce of the destination, the retries only run out. -/
private theorem run_budget (sound : table.Sound) {exchanges : List (AnnounceCall × AnnounceReply)}
    (run : Run (Step profile transportId) table exchanges after)
    (named : ∀ exchange ∈ exchanges, exchange.1.Named)
    (other : ∀ exchange ∈ exchanges, ¬ exchange.1.Adds destination)
    (notBefore : table.NotBefore destination earliest) :
    (rebroadcastTimes destination exchanges).length + after.budget destination ≤
        table.budget destination ∧
      (∀ time ∈ rebroadcastTimes destination exchanges, earliest ≤ time) ∧
      (rebroadcastTimes destination exchanges).Pairwise
        fun first second => first + PATHFINDER_G ≤ second := by
  -- The induction is over the run; the earliest time moves with each message.
  induction run generalizing earliest with
  | done table => exact ⟨by simp [rebroadcastTimes], by simp [rebroadcastTimes], .nil⟩
  | @next table middle final exchange exchanges first rest ih =>
    have soundNext := sound.step (named _ List.mem_cons_self) first
    have namedRest := fun exchange member => named exchange (List.mem_cons_of_mem _ member)
    have otherRest := fun exchange member => other exchange (List.mem_cons_of_mem _ member)
    have split : rebroadcastTimes destination (exchange :: exchanges) =
        ((rebroadcasts destination exchange.2.sent).map fun _ => exchange.1.now) ++
          rebroadcastTimes destination exchanges := List.flatMap_cons
    rw [split]
    rcases step_budget sound first (other _ List.mem_cons_self) notBefore with
      ⟨silent, budget, kept⟩ | ⟨⟨message, sent⟩, budget, early, kept⟩
    · -- A silent call leaves the count, the bound and the spacing to the rest of the run.
      obtain ⟨count, bound, spaced⟩ := ih soundNext namedRest otherRest kept
      rw [silent, List.map_nil, List.nil_append]
      exact ⟨by omega, bound, spaced⟩
    · -- The time of this message is before all later ones by at least the grace.
      obtain ⟨count, bound, spaced⟩ := ih soundNext namedRest otherRest kept
      rw [sent, List.map_singleton, List.singleton_append, List.length_cons]
      refine ⟨by omega, fun time member => ?_, List.pairwise_cons.mpr ⟨bound, spaced⟩⟩
      rcases List.mem_cons.mp member with rfl | later
      · exact early
      · exact Nat.le_trans early (Nat.le_trans (Nat.le_add_right _ _) (bound time later))

/-- What becomes of a queued announce in one call that does not add another. -/
private theorem step_keepsOrEnds (sound : table.Sound)
    (step : table.Step profile transportId exchange after) (other : ¬ exchange.1.Adds destination)
    {entry : AnnounceEntry} (found : table.map.lookup destination = some entry) :
    table.KeepsOrEnds exchange after destination entry := by
  obtain ⟨call, reply⟩ := exchange
  cases call with
  | add now random announce added receivedFrom =>
    obtain ⟨-, rfl⟩ := step_add.mp step
    -- The announce that is added is one of another destination.
    exact .inl ⟨entry, (AList.lookup_insert_ne fun same => other same.symm).trans found, rfl⟩
  | addResponse now random asked toIface hops grace =>
    obtain ⟨-, rfl⟩ := step_addResponse.mp step
    exact .inl ⟨entry, addResponse_map.symm ▸ found, rfl⟩
  | echoReceived now echoed hops =>
    obtain ⟨removed, rfl, handled⟩ := step_echoReceived.mp step
    -- Only an echo of this destination can end its announce.
    by_cases same : destination = echoed
    · subst same
      obtain rfl | ⟨rfl, -⟩ | ⟨heard, before, rfl⟩ := echoReceived_cases handled
      · exact .inl ⟨entry, found, rfl⟩
      · exact .inr (.inl ⟨now, hops, rfl⟩)
      · obtain rfl := Option.some.inj (found.symm.trans before)
        exact .inl ⟨_, AList.lookup_insert _, rfl⟩
    · obtain rfl | ⟨-, rfl⟩ | ⟨heard, -, rfl⟩ := echoReceived_cases handled
      · exact .inl ⟨entry, found, rfl⟩
      · exact .inl ⟨entry, (AList.lookup_erase_ne same).trans found, rfl⟩
      · exact .inl ⟨entry, (AList.lookup_insert_ne same).trans found, rfl⟩
  | toRetransmit now random randomResponse =>
    obtain ⟨-, rfl⟩ := step_toRetransmit.mp step
    have left := @toRetransmit_map table now random randomResponse transportId destination
    rw [found, Option.bind_some] at left
    by_cases held : destination ∈ table.responses
    · -- A pending response holds the announce back as it is.
      exact .inl ⟨entry, left.trans (if_pos held), rfl⟩
    · rw [if_neg held] at left
      by_cases spent : entry.Spent
      · -- A spent announce goes into the archive.
        obtain ⟨archived, shape, distinct, listed⟩ :=
          @toRetransmit_cache table now random randomResponse transportId
        have member := (listed destination entry).mpr ⟨found, held, spent⟩
        refine .inr (.inr ⟨archived, shape, member, fun few => ?_⟩)
        rw [shape]
        refine AnnounceCache.get_insertAll member distinct ?_
        rw [AnnounceCache.prune_capacity, sound.capacity]
        exact few
      · -- Otherwise it waits or was sent, and carries the same packet.
        rw [if_neg spent] at left
        obtain same | ⟨-, timeout, -, sent⟩ := @AnnounceEntry.retransmit_entry entry now
          (random destination) transportId
        · exact .inl ⟨_, left, by rw [same]⟩
        · exact .inl ⟨_, left, by rw [sent]⟩

end AnnounceTable

/--
Between two additions of announces of a destination, the announce is passed on only so often, each
time after the grace of the time before, and never while a response for it is pending; it stays
queued until an echo ends it or it is archived, and the archive stays within its generations.
-/
theorem announce_rebroadcast_budget {profile : Profile} {transportId destination : AddressHash}
    {start : Instant} {front middle : List (AnnounceCall × AnnounceReply)}
    {queued reached : AnnounceTable}
    (before : Run (AnnounceTable.Step profile transportId) (.new start) front queued)
    (run : Run (AnnounceTable.Step profile transportId) queued middle reached)
    (named : ∀ exchange ∈ front ++ middle, exchange.1.Named)
    (other : ∀ exchange ∈ middle, ¬ exchange.1.Adds destination) :
    (rebroadcastTimes destination middle).length ≤ LOCAL_REBROADCASTS_MAX ∧
      ((rebroadcastTimes destination middle).Pairwise
        fun first second => first + PATHFINDER_G ≤ second) ∧
      (∀ exchange after, reached.Step profile transportId exchange after →
        destination ∈ reached.responses → rebroadcasts destination exchange.2.sent = []) ∧
      (∀ exchange after entry, reached.Step profile transportId exchange after →
        ¬ exchange.1.Adds destination → reached.map.lookup destination = some entry →
          reached.KeepsOrEnds exchange after destination entry) ∧
      reached.cache.size ≤ 2 * ANNOUNCE_CACHE_CAPACITY := by
  have namedFront := fun exchange member => named exchange (List.mem_append_left _ member)
  have namedMiddle := fun exchange member => named exchange (List.mem_append_right _ member)
  have sound : queued.Sound := AnnounceTable.new_sound.run before namedFront
  have reachedSound : reached.Sound := sound.run run namedMiddle
  obtain ⟨count, -, spaced⟩ := AnnounceTable.run_budget sound run namedMiddle other
    (fun _ _ => Nat.zero_le _)
  -- What is queued has no more retries left than there are at all.
  have most : queued.budget destination ≤ LOCAL_REBROADCASTS_MAX := by
    unfold AnnounceTable.budget
    cases queued.map.lookup destination with
    | none => exact Nat.zero_le _
    | some entry => exact Nat.sub_le _ _
  refine ⟨by omega, spaced, ?_, fun exchange after entry step other found =>
    AnnounceTable.step_keepsOrEnds reachedSound step other found,
    reachedSound.capacity ▸ reachedSound.bounded.size_le⟩
  intro exchange after step pending
  -- Only a sweep sends anything, and it passes over what has a pending response.
  obtain ⟨call, reply⟩ := exchange
  cases call with
  | add => obtain ⟨rfl, -⟩ := AnnounceTable.step_add.mp step; rfl
  | addResponse => obtain ⟨rfl, -⟩ := AnnounceTable.step_addResponse.mp step; rfl
  | echoReceived => obtain ⟨_, rfl, -⟩ := AnnounceTable.step_echoReceived.mp step; rfl
  | toRetransmit =>
    obtain ⟨rfl, -⟩ := AnnounceTable.step_toRetransmit.mp step
    refine (AnnounceTable.toRetransmit_rebroadcasts reachedSound).trans ?_
    cases reached.map.lookup destination with
    | none => rfl
    | some entry =>
      rw [Option.bind_some, if_neg fun both => both.1 pending]
      rfl

/-- A table with one queued announce, for concrete runs. -/
private def oneQueued : AnnounceTable :=
  (AnnounceTable.new 0).add 0 0 (.emission 1 (.sample 3 100)) (.filled 1) (.filled 5)

/-- The messages and the table of a first sweep, for concrete runs. -/
private def firstSweep : List TxMessage × AnnounceTable :=
  oneQueued.toRetransmit 1000 (fun _ => 0) (fun _ => 0) (.filled 9)

/-- A queued announce is passed on once by a first sweep. -/
theorem announce_rebroadcast_budget_once :
    (rebroadcasts (.filled 1) firstSweep.1).length = 1 ∧
      firstSweep.2.cache.size ≤ 2 * ANNOUNCE_CACHE_CAPACITY := by
  -- One announce added, one sweep: one rebroadcast.
  refine ⟨by decide, ?_⟩
  have queued : Run (AnnounceTable.Step .debug (.filled 9)) (.new 0)
      [(.add 0 0 (.emission 1 (.sample 3 100)) (.filled 1) (.filled 5), .done)] oneQueued :=
    .next (AnnounceTable.step_add.mpr ⟨rfl, rfl⟩) (.done _)
  have swept : Run (AnnounceTable.Step .debug (.filled 9)) oneQueued
      [(.toRetransmit 1000 (fun _ => 0) fun _ => 0, .messages firstSweep.1)] firstSweep.2 :=
    .next (AnnounceTable.step_toRetransmit.mpr ⟨rfl, rfl⟩) (.done _)
  exact (@announce_rebroadcast_budget .debug (.filled 9) (.filled 1) _ _ _ _ _ queued swept
    (by simp [AnnounceCall.Named, Packet.emission]) (by simp [AnnounceCall.Adds])).2.2.2.2

end Reticulum
