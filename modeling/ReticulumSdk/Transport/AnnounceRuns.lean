import ReticulumSdk.Base.Run
import ReticulumSdk.Transport.AnnounceTableLaws

/-! Runs of the announce table: its calls in any order, and what holds in every state they reach. -/

namespace Reticulum

/-- A call of the announce table, with the clock it reads and the random numbers it is given. -/
inductive AnnounceCall where
  | add (now : Instant) (random : UInt64) (announce : Packet) (destination receivedFrom : AddressHash)
  | addResponse (now : Instant) (random : UInt64) (destination toIface : AddressHash) (hops : UInt8)
      (grace : Duration)
  | echoReceived (now : Instant) (destination : AddressHash) (hops : UInt8)
  | toRetransmit (now : Instant) (random randomResponse : AddressHash → UInt64)

/-- What a call answers its caller. -/
inductive AnnounceReply where
  | done
  | told (answer : Bool)
  | messages (sent : List TxMessage)
  deriving DecidableEq

/-- The messages in an answer. -/
def AnnounceReply.sent : AnnounceReply → List TxMessage
  | .messages sent => sent
  | _ => []

namespace AnnounceCall

/-- The clock of a call. -/
def now : AnnounceCall → Instant
  | .add now .. | .addResponse now .. | .echoReceived now .. | .toRetransmit now .. => now

/-- Announces are added under their own destinations, as `handle_announce` does it. -/
def Named : AnnounceCall → Prop
  | .add _ _ announce destination _ => announce.destination = destination
  | _ => True

/-- The call adds an announce of a destination. -/
def Adds (destination : AddressHash) : AnnounceCall → Prop
  | .add _ _ _ added _ => added = destination
  | _ => False

end AnnounceCall

namespace AnnounceTable

/-- The table after a call, and the answer. -/
def handle (profile : Profile) (transportId : AddressHash) (table : AnnounceTable) :
    AnnounceCall → Outcome (AnnounceReply × AnnounceTable)
  | .add now random announce destination receivedFrom =>
    .ok (.done, table.add now random announce destination receivedFrom)
  | .addResponse now random destination toIface hops grace =>
    let (found, after) := table.addResponse now random destination toIface hops grace
    .ok (.told found, after)
  | .echoReceived now destination hops => do
    let (removed, after) ← table.echoReceived profile now destination hops
    return (.told removed, after)
  | .toRetransmit now random randomResponse =>
    let (sent, after) := table.toRetransmit now random randomResponse transportId
    .ok (.messages sent, after)

/-- One call of a run, and its answer. -/
def Step (profile : Profile) (transportId : AddressHash) (table : AnnounceTable)
    (exchange : AnnounceCall × AnnounceReply) (after : AnnounceTable) : Prop :=
  table.handle profile transportId exchange.1 = .ok (exchange.2, after)

/-- The table has an announce to respond with. -/
def Knows (table : AnnounceTable) (destination : AddressHash) : Prop :=
  destination ∈ table.map ∨ (table.cache.get destination).isSome

/-- What holds of a table in every run from an empty one. -/
structure Sound (table : AnnounceTable) : Prop where
  queued : ∀ destination entry, table.map.lookup destination = some entry →
    entry.packet.destination = destination ∧ entry.responseToIface = none
  archived : ∀ destination entry, table.cache.Holds destination entry →
    entry.packet.destination = destination
  pending : ∀ destination entry, table.responses.lookup destination = some entry →
    entry.packet.destination = destination ∧ entry.responseToIface.isSome ∧ entry.retries = 0 ∧
      entry.localRebroadcasts = 0
  bounded : table.cache.Bounded
  capacity : table.cache.capacity = ANNOUNCE_CACHE_CAPACITY

variable {table after : AnnounceTable} {now : Instant} {random : UInt64}
variable {destination toIface : AddressHash} {hops : UInt8} {grace : Duration}

/-- The entry a request finds, in the map or in the archive. -/
theorem addResponse_found (found : (table.addResponse now random destination toIface hops grace).1 =
    true) : ∃ entry, (table.map.lookup destination = some entry ∨
      table.cache.Holds destination entry) ∧
    table.addResponse now random destination toIface hops grace =
      (true, table.doAddResponse now random entry destination toIface hops grace) := by
  -- The map is asked first, and then the archive.
  unfold addResponse at found ⊢
  split
  · rename_i entry queued
    exact ⟨entry, .inl queued, rfl⟩
  · rename_i absent
    rw [absent] at found
    split
    · rename_i entry archived
      exact ⟨entry, .inr (AnnounceCache.holds_of_get archived), rfl⟩
    · rename_i unknown
      rw [unknown] at found
      -- Neither has an announce, which is not what the answer says.
      cases found

/-- A request that finds nothing changes nothing. -/
theorem addResponse_missed
    (missed : (table.addResponse now random destination toIface hops grace).1 = false) :
    table.addResponse now random destination toIface hops grace = (false, table) := by
  -- Whatever is found makes the answer yes.
  unfold addResponse at missed ⊢
  split
  · rename_i entry queued
    rw [queued] at missed
    cases missed
  · rename_i absent
    rw [absent] at missed
    split
    · rename_i entry archived
      rw [archived] at missed
      cases missed
    · rfl

/-- A request finds an announce exactly where the table has one. -/
theorem addResponse_fst : (table.addResponse now random destination toIface hops grace).1 = true ↔
    table.Knows destination := by
  -- Each of the two places answers yes by itself.
  unfold addResponse Knows
  rw [← AList.lookup_isSome]
  cases queued : table.map.lookup destination with
  | some entry => simp
  | none => cases archived : table.cache.get destination <;> simp

/-- A request leaves the announces alone. -/
theorem addResponse_map :
    (table.addResponse now random destination toIface hops grace).2.map = table.map := by
  -- Only the responses are written to.
  cases found : (table.addResponse now random destination toIface hops grace).1 with
  | false => rw [addResponse_missed found]
  | true =>
    obtain ⟨entry, -, shape⟩ := addResponse_found found
    rw [shape]
    rfl

/-- The table starts empty. -/
theorem new_sound : (new now).Sound where
  queued _ _ found := by cases found
  archived _ _ held := by
    obtain newer | ⟨older, same, -⟩ := held
    · cases newer
    · cases same
  pending _ _ found := by cases found
  bounded := ⟨Nat.zero_le _, fun _ same => by cases same⟩
  capacity := rfl

/-- Adding an announce keeps the table sound. -/
theorem Sound.add (sound : table.Sound) {announce : Packet} {receivedFrom : AddressHash}
    (named : announce.destination = destination) :
    (table.add now random announce destination receivedFrom).Sound where
  queued other entry found := by
    obtain ⟨rfl, rfl⟩ | ⟨-, before⟩ := Table.of_lookup_insert found
    · exact ⟨named, rfl⟩
    · exact sound.queued other entry before
  archived := sound.archived
  pending := sound.pending
  bounded := sound.bounded
  capacity := sound.capacity

/-- A request keeps the table sound. -/
theorem Sound.addResponse (sound : table.Sound) :
    (table.addResponse now random destination toIface hops grace).2.Sound := by
  cases found : (table.addResponse now random destination toIface hops grace).1 with
  | false =>
    rw [addResponse_missed found]
    exact sound
  | true =>
    obtain ⟨entry, source, shape⟩ := addResponse_found found
    rw [shape]
    -- Map and archive both hold announces under their own destinations.
    have named : entry.packet.destination = destination := by
      rcases source with queued | held
      · exact (sound.queued destination entry queued).1
      · exact sound.archived destination entry held
    refine ⟨sound.queued, sound.archived, fun other pending found => ?_, sound.bounded, sound.capacity⟩
    -- The new response has no retry and no echo yet, and the others are what they were.
    obtain ⟨rfl, rfl⟩ | ⟨-, before⟩ := Table.of_lookup_insert found
    · exact ⟨named, rfl, rfl, rfl⟩
    · exact sound.pending other pending before

/-- An echo keeps the table sound. -/
theorem Sound.echoReceived (sound : table.Sound) {profile : Profile} {removed : Bool}
    (handled : table.echoReceived profile now destination hops = .ok (removed, after)) :
    after.Sound := by
  -- An echo removes an entry or counts one up, and neither renames it.
  obtain rfl | ⟨-, rfl⟩ | ⟨entry, found, rfl⟩ := echoReceived_cases handled
  · exact sound
  · refine ⟨fun other entry found => ?_, sound.archived, sound.pending, sound.bounded, sound.capacity⟩
    exact sound.queued other entry (Table.of_lookup_erase found).2
  · refine ⟨fun other heard held => ?_, sound.archived, sound.pending, sound.bounded, sound.capacity⟩
    obtain ⟨rfl, rfl⟩ | ⟨-, before⟩ := Table.of_lookup_insert held
    · exact sound.queued other entry found
    · exact sound.queued other heard before

/-- A sweep keeps the table sound. -/
theorem Sound.toRetransmit (sound : table.Sound) {random randomResponse : AddressHash → UInt64}
    {transportId : AddressHash} :
    (table.toRetransmit now random randomResponse transportId).2.Sound := by
  obtain ⟨archived, shape, -, listed⟩ := @toRetransmit_cache table now random randomResponse transportId
  have pruned : (table.cache.prune now ANNOUNCE_CACHE_MAX_AGE).Bounded := sound.bounded.prune
  have room : 0 < (table.cache.prune now ANNOUNCE_CACHE_MAX_AGE).capacity := by
    rw [AnnounceCache.prune_capacity, sound.capacity]
    decide
  refine ⟨fun destination entry found => ?_, fun destination entry held => ?_,
    fun destination entry found => ?_, ?_, ?_⟩
  · -- An announce that is left in the map waits, or was sent and changed only in its retries and
    -- timeout.
    rw [toRetransmit_map] at found
    obtain ⟨before, queued, left⟩ := Option.bind_eq_some_iff.mp found
    have kept := sound.queued destination before queued
    split at left
    · exact Option.some.inj left ▸ kept
    · split at left
      · cases left
      · obtain rfl := Option.some.inj left
        obtain same | ⟨-, timeout, -, sent⟩ := @AnnounceEntry.retransmit_entry before now
          (random destination) transportId
        · rw [same]
          exact kept
        · rw [sent]
          exact kept
  · -- What goes into the archive was queued under its own destination.
    rw [shape] at held
    rcases AnnounceCache.holds_insertAll held with member | before
    · exact (sound.queued destination entry ((listed destination entry).mp member).1).1
    · exact sound.archived destination entry (AnnounceCache.holds_prune before)
  · -- A response that is left was not sent, so it has no retry.
    rw [toRetransmit_responses] at found
    obtain ⟨kept, waits⟩ := Option.filter_eq_some_iff.mp found
    obtain ⟨before, pending, rfl⟩ := Option.map_eq_some_iff.mp kept
    obtain same | ⟨-, timeout, -, sent⟩ := @AnnounceEntry.retransmit_entry before now
      (randomResponse destination) transportId
    · rw [same]
      exact sound.pending destination before pending
    · rw [sent] at waits
      simp at waits
  · rw [shape]
    exact pruned.insertAll room
  · rw [shape, AnnounceCache.insertAll_capacity, AnnounceCache.prune_capacity, sound.capacity]

section Calls

variable {profile : Profile} {transportId receivedFrom : AddressHash} {reply : AnnounceReply}
variable {announce : Packet} {randoms randomResponse : AddressHash → UInt64}

/-- Adding an announce answers nothing. -/
theorem step_add :
    table.Step profile transportId (.add now random announce destination receivedFrom, reply) after ↔
      reply = .done ∧ after = table.add now random announce destination receivedFrom := by
  unfold Step handle
  simp only [Except.ok.injEq, Prod.mk.injEq, eq_comm]

/-- A request is told whether there is an announce. -/
theorem step_addResponse :
    table.Step profile transportId (.addResponse now random destination toIface hops grace, reply)
        after ↔
      reply = .told (table.addResponse now random destination toIface hops grace).1 ∧
        after = (table.addResponse now random destination toIface hops grace).2 := by
  unfold Step handle
  simp only [Except.ok.injEq, Prod.mk.injEq, eq_comm]

/-- An echo is told whether it took the announce away. -/
theorem step_echoReceived :
    table.Step profile transportId (.echoReceived now destination hops, reply) after ↔
      ∃ removed, reply = .told removed ∧
        table.echoReceived profile now destination hops = .ok (removed, after) := by
  -- Of all calls only this one may not finish.
  unfold Step handle
  constructor
  · intro step
    obtain ⟨⟨removed, left⟩, handled, done⟩ := bind_eq_ok.mp step
    obtain ⟨rfl, rfl⟩ := Prod.mk.inj (Except.ok.inj done)
    exact ⟨removed, rfl, handled⟩
  · rintro ⟨removed, rfl, handled⟩
    exact bind_eq_ok.mpr ⟨_, handled, rfl⟩

/-- A sweep answers its messages. -/
theorem step_toRetransmit :
    table.Step profile transportId (.toRetransmit now randoms randomResponse, reply) after ↔
      reply = .messages (table.toRetransmit now randoms randomResponse transportId).1 ∧
        after = (table.toRetransmit now randoms randomResponse transportId).2 := by
  unfold Step handle
  simp only [Except.ok.injEq, Prod.mk.injEq, eq_comm]

end Calls

/-- Every call keeps the table sound. -/
theorem Sound.step (sound : table.Sound) {profile : Profile} {transportId : AddressHash}
    {exchange : AnnounceCall × AnnounceReply} (named : exchange.1.Named)
    (step : table.Step profile transportId exchange after) : after.Sound := by
  -- Each call has its own lemma.
  obtain ⟨call, reply⟩ := exchange
  cases call with
  | add now random announce destination receivedFrom =>
    obtain ⟨-, rfl⟩ := step_add.mp step
    exact sound.add named
  | addResponse now random destination toIface hops grace =>
    obtain ⟨-, rfl⟩ := step_addResponse.mp step
    exact sound.addResponse
  | echoReceived now destination hops =>
    obtain ⟨removed, -, handled⟩ := step_echoReceived.mp step
    exact sound.echoReceived handled
  | toRetransmit now random randomResponse =>
    obtain ⟨-, rfl⟩ := step_toRetransmit.mp step
    exact sound.toRetransmit

/-- Every run keeps the table sound. -/
theorem Sound.run (sound : table.Sound) {profile : Profile} {transportId : AddressHash}
    {exchanges : List (AnnounceCall × AnnounceReply)}
    (run : Run (Step profile transportId) table exchanges after)
    (named : ∀ exchange ∈ exchanges, exchange.1.Named) : after.Sound :=
  run.invariant_on (fun _ _ _ named sound step => sound.step named step) named sound

end AnnounceTable

end Reticulum
