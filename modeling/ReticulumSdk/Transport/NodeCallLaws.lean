import ReticulumSdk.Transport.AnnounceLaws
import ReticulumSdk.Transport.NodeCalls

/-! What each call leaves of the paths and the queued announces of a node. -/

namespace Reticulum

namespace AnnouncedPaths

/-- Every path of a table was there before, over no fewer hops. -/
def Within (before after : AnnouncedPaths) : Prop :=
  ∀ destination path, after.get destination = some path →
    ∃ known, before.get destination = some known ∧ path.hops ≤ known.hops

variable {paths : AnnouncedPaths} {destination : AddressHash} {now : Instant}

/-- A path that is only looked at is as it was. -/
theorem Within.refl (paths : AnnouncedPaths) : Within paths paths :=
  fun _ path found => ⟨path, found, UInt8.le_refl _⟩

/-- Paths that are only taken away were there before. -/
theorem Within.of_filter {after : AnnouncedPaths} (passes : AddressHash → AnnouncedPath → Bool)
    (left : ∀ destination, after.get destination = (paths.get destination).filter (passes destination)) :
    Within paths after := by
  -- What passes a filter was there, as it is.
  intro destination path found
  rw [left] at found
  exact ⟨path, (Option.filter_eq_some_iff.mp found).1, UInt8.le_refl _⟩

/-- A change that makes no path longer. -/
theorem Within.adjust {change : AnnouncedPath → AnnouncedPath}
    (shorter : ∀ path, (change path).hops ≤ path.hops) : Within paths (paths.adjust destination change) := by
  intro other path found
  rw [adjust_get] at found
  -- One path is changed, and no other.
  split at found
  · obtain ⟨known, before, rfl⟩ := Option.map_eq_some_iff.mp found
    exact ⟨known, before, shorter known⟩
  · exact ⟨path, found, UInt8.le_refl _⟩

/-- Stale paths are taken away. -/
theorem removeStale_within (isActiveIface : AddressHash → Bool) :
    Within paths (paths.removeStale now isActiveIface) :=
  .of_filter (fun _ path => ¬ now ≥ path.expires ∧ isActiveIface path.iface) fun _ => removeStale_get _

/-- Paths are taken away by their destinations. -/
theorem eraseAll_within (destinations : List AddressHash) :
    Within paths { paths with map := paths.map.eraseAll destinations } := by
  intro other path found
  have found : (paths.map.eraseAll destinations).lookup other = some path := found
  rw [Table.lookup_eraseAll] at found
  -- What is erased is not found, and the rest is as it was.
  split at found
  · cases found
  · exact ⟨path, found, UInt8.le_refl _⟩

/-- A path is taken away. -/
theorem remove_within : Within paths (paths.remove destination) :=
  fun _ path found => ⟨path, (Table.of_lookup_erase found).2, UInt8.le_refl _⟩

/-- The paths through a transport are taken away. -/
theorem dropAllVia_within (via : AddressHash) : Within paths (paths.dropAllVia via) :=
  .of_filter (fun _ path => path.receivedFrom ≠ via) fun _ => Table.lookup_retain _ _ _

/-- A rebalance only shortens a path. -/
theorem rebalanceHops_within (proofHops : UInt8) :
    Within paths (paths.rebalanceHops destination proofHops) := by
  unfold rebalanceHops
  split
  · rename_i shortens
    intro other path found
    rw [adjust_get] at found
    split at found
    · -- The path that is rebalanced was longer than the proof says.
      rename_i same
      obtain ⟨known, before, rfl⟩ := Option.map_eq_some_iff.mp found
      rw [← same, before] at shortens
      have less : proofHops < known.hops := by simpa using shortens
      exact ⟨known, before, UInt8.le_of_lt less⟩
    · exact ⟨path, found, UInt8.le_refl _⟩
  · exact .refl paths

end AnnouncedPaths

/-- An announce keeps its hops when it is retransmitted. -/
theorem AnnounceEntry.retransmit_hops (entry : AnnounceEntry) (now : Instant) (random : UInt64)
    (transportId : AddressHash) : (entry.retransmit now random transportId).2.hops = entry.hops := by
  obtain same | ⟨-, timeout, -, sent⟩ := @AnnounceEntry.retransmit_entry entry now random transportId
  · rw [same]
  · rw [sent]

namespace AnnounceTable

/-- Every queued announce and response was queued before, and every archived one was queued or archived. -/
structure Within (before after : AnnounceTable) : Prop where
  queued : ∀ destination entry, after.map.lookup destination = some entry →
    ∃ known, before.map.lookup destination = some known ∧ entry.hops = known.hops
  pending : ∀ destination entry, after.responses.lookup destination = some entry →
    ∃ known, before.responses.lookup destination = some known ∧ entry.hops = known.hops
  archived : ∀ destination entry, after.cache.Holds destination entry →
    before.cache.Holds destination entry ∨ before.map.lookup destination = some entry

variable {table after : AnnounceTable} {now : Instant} {destination : AddressHash}

/-- A table that is only read is as it was. -/
theorem Within.refl (table : AnnounceTable) : Within table table :=
  ⟨fun _ entry found => ⟨entry, found, rfl⟩, fun _ entry found => ⟨entry, found, rfl⟩,
    fun _ _ held => .inl held⟩

/-- An echo queues nothing. -/
theorem echoReceived_within {profile : Profile} {hops : UInt8} {removed : Bool}
    (heard : table.echoReceived profile now destination hops = .ok (removed, after)) :
    Within table after := by
  -- The entry is removed, or counted up.
  obtain rfl | ⟨-, rfl⟩ | ⟨entry, found, rfl⟩ := echoReceived_cases heard
  · exact .refl _
  · exact { Within.refl table with
      queued := fun _ entry left => ⟨entry, (Table.of_lookup_erase left).2, rfl⟩ }
  · refine { Within.refl table with queued := fun other left held => ?_ }
    obtain ⟨rfl, rfl⟩ | ⟨-, before⟩ := Table.of_lookup_insert held
    · exact ⟨entry, found, rfl⟩
    · exact ⟨left, before, rfl⟩

/-- A sweep archives what it takes out of the queue. -/
theorem toRetransmit_within {random randomResponse : AddressHash → UInt64} {transportId : AddressHash} :
    Within table (table.toRetransmit now random randomResponse transportId).2 where
  queued other entry found := by
    rw [toRetransmit_map] at found
    -- An announce that stays was queued, and is sent or left.
    obtain ⟨known, before, left⟩ := Option.bind_eq_some_iff.mp found
    refine ⟨known, before, ?_⟩
    split at left
    · rw [Option.some.inj left]
    · split at left
      · cases left
      · rw [← Option.some.inj left, AnnounceEntry.retransmit_hops]
  pending other entry found := by
    rw [toRetransmit_responses] at found
    obtain ⟨known, before, rfl⟩ := Option.map_eq_some_iff.mp (Option.filter_eq_some_iff.mp found).1
    exact ⟨known, before, AnnounceEntry.retransmit_hops _ _ _ _⟩
  archived other entry held := by
    obtain ⟨archived, shape, -, listed⟩ :=
      @toRetransmit_cache table now random randomResponse transportId
    rw [shape] at held
    -- The sweep archives what it takes out of the queue.
    rcases AnnounceCache.holds_insertAll held with member | before
    · exact .inr ((listed other entry).mp member).1
    · exact .inl (AnnounceCache.holds_prune before)

/-- Every message of a sweep has the hops of an entry that was queued. -/
theorem toRetransmit_hops {random randomResponse : AddressHash → UInt64} {transportId : AddressHash}
    {message : TxMessage}
    (sent : message ∈ (table.toRetransmit now random randomResponse transportId).1) :
    ∃ destination entry, (table.map.lookup destination = some entry ∨
      table.responses.lookup destination = some entry) ∧ message.packet.header.hops = entry.hops := by
  rw [toRetransmit_sent] at sent
  -- The message is of the announces or of the responses.
  rcases List.mem_append.mp sent with announced | answered
  · obtain ⟨⟨destination, entry⟩, member, made⟩ := List.mem_filterMap.mp announced
    split at made
    · obtain rfl := Option.some.inj made
      exact ⟨destination, entry, .inl (AList.mem_lookup_iff.mpr member), rfl⟩
    · cases made
  · obtain ⟨⟨destination, entry⟩, member, made⟩ := List.mem_filterMap.mp answered
    split at made
    · obtain rfl := Option.some.inj made
      exact ⟨destination, entry, .inr (AList.mem_lookup_iff.mpr member), rfl⟩
    · cases made

/-- Every old message has the hops of an entry that was archived. -/
theorem toRetransmitOld_hops {transportId : AddressHash} {message : TxMessage}
    (sent : message ∈ table.toRetransmitOld transportId) :
    ∃ destination entry, table.cache.Holds destination entry ∧
      message.packet.header.hops = entry.hops := by
  -- The message is of the newer generation, or of the older one if there is any.
  have made : ∀ generation, message ∈ table.oldMessages transportId generation →
      ∃ destination entry, generation.lookup destination = some entry ∧
        message.packet.header.hops = entry.hops := by
    intro generation member
    obtain ⟨⟨destination, entry⟩, kept, rfl⟩ := List.mem_map.mp member
    exact ⟨destination, entry, AList.mem_lookup_iff.mpr (List.mem_filter.mp kept).1, rfl⟩
  rcases List.mem_append.mp sent with newer | older
  · obtain ⟨destination, entry, found, same⟩ := made _ newer
    exact ⟨destination, entry, .inl found, same⟩
  · cases generation : table.cache.older with
    | none =>
      rw [generation] at older
      cases older
    | some table =>
      rw [generation] at older
      obtain ⟨destination, entry, found, same⟩ := made _ older
      exact ⟨destination, entry, .inr ⟨table, generation, found⟩, same⟩

/-- A request leaves the archive alone. -/
theorem addResponse_cache {random : UInt64} {toIface : AddressHash} {hops : UInt8} {grace : Duration} :
    (table.addResponse now random destination toIface hops grace).2.cache = table.cache := by
  unfold addResponse
  split
  · rfl
  · split <;> rfl

/-- A response that is pending after a request was pending before, or is the one asked for. -/
theorem addResponse_pending {random : UInt64} {toIface other : AddressHash} {hops : UInt8}
    {grace : Duration} {entry : AnnounceEntry}
    (pending : (table.addResponse now random destination toIface hops grace).2.responses.lookup other =
      some entry) :
    other = destination ∧ entry.hops = hops ∨ table.responses.lookup other = some entry := by
  -- Only an announce that is queued or archived makes a response.
  cases found : (table.addResponse now random destination toIface hops grace).1 with
  | false =>
    rw [addResponse_missed found] at pending
    exact .inr pending
  | true =>
    obtain ⟨source, -, shape⟩ := addResponse_found found
    rw [shape] at pending
    rcases Table.of_lookup_insert pending with ⟨same, rfl⟩ | ⟨-, before⟩
    · exact .inl ⟨same, rfl⟩
    · exact .inr before

/-- Clearing leaves nothing. -/
theorem clear_within : Within table table.clear where
  -- Nothing is found in a table that was cleared.
  queued _ _ found := by cases found
  pending _ _ found := by cases found
  archived _ _ held := by
    obtain newer | ⟨older, same, -⟩ := held
    · cases newer
    · cases same

end AnnounceTable

namespace AnnounceNode

variable {agreement : KeyAgreement} {profile : Profile} {curves : Curves}
  {node after : AnnounceNode agreement}

/-- A call that only takes away from what a node keeps of announces. -/
structure Keeps (node after : AnnounceNode agreement) : Prop where
  paths : AnnouncedPaths.Within node.pathTable after.pathTable
  announces : AnnounceTable.Within node.announceTable after.announceTable
  known : ∀ destination found, after.singleOutDestinations.lookup destination = some found →
    node.singleOutDestinations.lookup destination = some found

/-- What a call does not touch is kept. -/
theorem Keeps.refl (node : AnnounceNode agreement) : Keeps node node :=
  ⟨.refl _, .refl _, fun _ _ found => found⟩

/-- Destinations that are forgotten were known. -/
theorem forget_known (destinations : List AddressHash) (destination : AddressHash)
    (found : SingleOutputDestination)
    (left : (node.forget destinations).singleOutDestinations.lookup destination = some found) :
    destination ∉ destinations ∧ node.singleOutDestinations.lookup destination = some found := by
  have left : (node.singleOutDestinations.eraseAll destinations).lookup destination = some found := left
  rw [Table.lookup_eraseAll] at left
  -- A destination that is still known was not among those.
  split at left
  · cases left
  · rename_i kept
    exact ⟨kept, left⟩

/-- Every call but the arrivals only takes away, whatever it does to the blackholed identities. -/
theorem handle_keeps {call : NodeCall} {sent : List TxMessage}
    (handled : node.handle profile curves call = .ok (sent, after))
    (announces : ∀ arrival, call ≠ .announce arrival) (asks : ∀ arrival, call ≠ .pathRequest arrival) :
    Keeps node after := by
  -- One call after the other: each changes one of the tables, by what that table's lemma says.
  cases call with
  | announce arrival => exact absurd rfl (announces arrival)
  | pathRequest arrival => exact absurd rfl (asks arrival)
  | retransmit now random randomResponse retransmitOld =>
    obtain ⟨-, rfl⟩ := Prod.mk.inj (Except.ok.inj handled)
    exact { Keeps.refl node with announces := AnnounceTable.toRetransmit_within }
  -- A destination that is dropped loses its path as well.
  | blackhole identityHash entry locked =>
    obtain ⟨-, rfl⟩ := Prod.mk.inj (Except.ok.inj handled)
    exact ⟨AnnouncedPaths.eraseAll_within _, .refl _, fun _ _ left => (forget_known _ _ _ left).2⟩
  | unblackhole identityHash =>
    obtain ⟨-, rfl⟩ := Prod.mk.inj (Except.ok.inj handled)
    exact { Keeps.refl node with }
  | update now source response =>
    obtain ⟨⟨count, table⟩, -, done⟩ := bind_eq_ok.mp handled
    obtain ⟨-, rfl⟩ := Prod.mk.inj (Except.ok.inj done)
    exact { Keeps.refl node with }
  -- Stale destinations and stale paths go together.
  | cleanUp now isActiveIface =>
    obtain ⟨-, rfl⟩ := Prod.mk.inj (Except.ok.inj handled)
    exact ⟨AnnouncedPaths.removeStale_within _, .refl _, fun _ _ left => (forget_known _ _ _ left).2⟩
  | cull now isActiveIface =>
    obtain ⟨-, rfl⟩ := Prod.mk.inj (Except.ok.inj handled)
    exact { Keeps.refl node with paths := AnnouncedPaths.removeStale_within _ }
  | dropPath destination =>
    obtain ⟨-, rfl⟩ := Prod.mk.inj (Except.ok.inj handled)
    exact { Keeps.refl node with paths := AnnouncedPaths.remove_within }
  | dropAllVia via =>
    obtain ⟨-, rfl⟩ := Prod.mk.inj (Except.ok.inj handled)
    exact { Keeps.refl node with paths := AnnouncedPaths.dropAllVia_within _ }
  | dropAnnounceQueues =>
    obtain ⟨-, rfl⟩ := Prod.mk.inj (Except.ok.inj handled)
    exact { Keeps.refl node with announces := AnnounceTable.clear_within }
  | markUnresponsive destination =>
    obtain ⟨-, rfl⟩ := Prod.mk.inj (Except.ok.inj handled)
    exact { Keeps.refl node with paths := .adjust fun _ => UInt8.le_refl _ }
  | refresh now destination =>
    obtain ⟨-, rfl⟩ := Prod.mk.inj (Except.ok.inj handled)
    exact { Keeps.refl node with paths := .adjust fun _ => UInt8.le_refl _ }
  | rebalanceHops destination proofHops =>
    obtain ⟨-, rfl⟩ := Prod.mk.inj (Except.ok.inj handled)
    exact { Keeps.refl node with paths := AnnouncedPaths.rebalanceHops_within _ }
  | otherwise change =>
    obtain ⟨-, rfl⟩ := Prod.mk.inj (Except.ok.inj handled)
    exact { Keeps.refl node with }

/-- Every message of a call that is no arrival has the hops of an entry of the announce table. -/
theorem handle_hops {call : NodeCall} {sent : List TxMessage}
    (handled : node.handle profile curves call = .ok (sent, after))
    (announces : ∀ arrival, call ≠ .announce arrival) (asks : ∀ arrival, call ≠ .pathRequest arrival)
    {message : TxMessage} (member : message ∈ sent) :
    ∃ destination entry, (node.announceTable.map.lookup destination = some entry ∨
      node.announceTable.responses.lookup destination = some entry ∨
      node.announceTable.cache.Holds destination entry) ∧ message.packet.header.hops = entry.hops := by
  cases call with
  | announce arrival => exact absurd rfl (announces arrival)
  | pathRequest arrival => exact absurd rfl (asks arrival)
  | retransmit now random randomResponse retransmitOld =>
    obtain ⟨rfl, -⟩ := Prod.mk.inj (Except.ok.inj handled)
    rcases List.mem_append.mp member with swept | old
    · obtain ⟨destination, entry, queued | pending, same⟩ := AnnounceTable.toRetransmit_hops swept
      · exact ⟨destination, entry, .inl queued, same⟩
      · exact ⟨destination, entry, .inr (.inl pending), same⟩
    · -- What is archived then was archived or queued before.
      split at old
      · obtain ⟨destination, entry, held, same⟩ := AnnounceTable.toRetransmitOld_hops old
        rcases AnnounceTable.toRetransmit_within.archived destination entry held with archived | queued
        · exact ⟨destination, entry, .inr (.inr archived), same⟩
        · exact ⟨destination, entry, .inl queued, same⟩
      · cases old
  | update now source response =>
    obtain ⟨⟨count, table⟩, -, done⟩ := bind_eq_ok.mp handled
    obtain ⟨rfl, -⟩ := Prod.mk.inj (Except.ok.inj done)
    cases member
  | _ =>
    -- The other calls send nothing.
    obtain ⟨rfl, -⟩ := Prod.mk.inj (Except.ok.inj handled)
    cases member

/-- A search is a request of the node's own, of no hops. -/
theorem searchPath_hops (arrival : AnnounceArrival) (request : PathRequest) :
    (∃ pathRequests, (node.searchPath arrival request).2 = { node with pathRequests := pathRequests }) ∧
      ∀ message ∈ (node.searchPath arrival request).1, message.packet.header.hops = 0 := by
  unfold searchPath
  dsimp only
  split
  · unfold PathRequests.generateRecursive
    dsimp only
    split
    · exact ⟨⟨_, rfl⟩, fun _ none => absurd none List.not_mem_nil⟩
    · rename_i packet generated
      refine ⟨⟨_, rfl⟩, fun message sent => ?_⟩
      -- Whichever way it goes, the message carries the packet that was generated.
      have carried : message.packet = packet := by
        dsimp only at sent
        split at sent
        · rw [List.mem_singleton.mp sent]
        · obtain ⟨address, -, made⟩ := List.mem_filterMap.mp sent
          repeat' split at made
          all_goals cases made
          rfl
      split at generated
      · rw [carried, ← Option.some.inj generated]
        rfl
      · cases generated
  · exact ⟨⟨_, rfl⟩, fun _ none => absurd none List.not_mem_nil⟩

/-- What a path request does: it is answered or passed on, or waits for its turn in the announce table. -/
inductive PathRequestEffect (node : AnnounceNode agreement) (arrival : AnnounceArrival) :
    List TxMessage × AnnounceNode agreement → Prop where
  | answered (sent : List TxMessage) (pathRequests : PathRequests)
      (hops : ∀ message ∈ sent, message.packet.header.hops = 0 ∨ ∃ destination path,
        node.pathTable.get destination = some path ∧ message.packet.header.hops = path.hops) :
      PathRequestEffect node arrival (sent, { node with pathRequests := pathRequests })
  | scheduled (destination : AddressHash) (path : AnnouncedPath) (grace : Duration)
      (pathRequests : PathRequests) (found : node.pathTable.get destination = some path) :
      PathRequestEffect node arrival ([], { node with
        pathRequests := pathRequests
        announceTable := (node.announceTable.addResponse arrival.now arrival.random destination
          arrival.iface path.hops grace).2 })

/-- Every path request has one of the effects. -/
theorem handlePathRequest_effect (node : AnnounceNode agreement) (arrival : AnnounceArrival) :
    PathRequestEffect node arrival (node.handlePathRequest arrival) := by
  unfold handlePathRequest
  obtain ⟨decoded, pathRequests⟩ := node.pathRequests.decode arrival.now arrival.packet.data
  -- A search changes the path requests once more, and sends requests of no hops.
  have searched (request : PathRequest) : PathRequestEffect node arrival
      ({ node with pathRequests := pathRequests }.searchPath arrival request) := by
    obtain ⟨⟨requests, shape⟩, hops⟩ :=
      @searchPath_hops agreement { node with pathRequests := pathRequests } arrival request
    have effect := @PathRequestEffect.answered _ node arrival _ requests
      fun message sent => .inl (hops message sent)
    rwa [← shape] at effect
  cases decoded with
  | none => exact .answered _ _ fun _ none => nomatch none
  | some request =>
    dsimp only
    split
    · -- The node's own announce starts with no hops.
      refine .answered _ _ fun message sent => .inl ?_
      rw [List.mem_singleton.mp sent]
      rfl
    · split
      · generalize (if arrival.ifaces.interfaceMode arrival.iface = .roaming then
          PATH_REQUEST_GRACE + PATH_REQUEST_RG else PATH_REQUEST_GRACE) = grace
        split
        · exact searched request
        · rename_i path found
          split
          · exact .answered _ _ fun _ none => nomatch none
          · split
            · exact .scheduled _ path grace _ found
            · split
              · -- The cached announce has the hops of its path.
                refine .answered _ _ fun message sent => .inr ⟨_, path, found, ?_⟩
                rw [List.mem_singleton.mp sent]
                rfl
              · exact searched request
      · exact .answered _ _ fun _ none => nomatch none

/-- What a node keeps of announces is as it was. -/
structure SameAnnounces (node after : AnnounceNode agreement) : Prop where
  paths : after.pathTable = node.pathTable
  announces : after.announceTable = node.announceTable
  known : after.singleOutDestinations = node.singleOutDestinations
  blackholes : after.blackholeTable = node.blackholeTable

/-- The announce is no path request and no duplicate. -/
def IsFresh (node : AnnounceNode agreement) (arrival : AnnounceArrival) : Prop :=
  arrival.packet.destination ≠ fixedDestPathRequests ∧
    (node.filterDuplicatePackets arrival.now arrival.packet).1 = true

/-- What the reception of an announce does, once it is one hop further. -/
inductive ReceiveEffect (profile : Profile) (curves : Curves) (node : AnnounceNode agreement)
    (arrival : AnnounceArrival) : Outbound → AnnounceNode agreement → Prop where
  | request (taken : arrival.packet.destination = fixedDestPathRequests) :
      ReceiveEffect profile curves node arrival ⟨(node.handlePathRequest arrival).1, []⟩
        (node.handlePathRequest arrival).2
  | duplicate {after : AnnounceNode agreement} (same : SameAnnounces node after)
      (dropped : (node.filterDuplicatePackets arrival.now arrival.packet).1 = false) :
      ReceiveEffect profile curves node arrival ⟨[], []⟩ after
  | refused {after : AnnounceNode agreement} (fresh : node.IsFresh arrival)
      (same : SameAnnounces node after)
      (refused : ∀ destination appData, ¬ node.Admits curves arrival destination appData) :
      ReceiveEffect profile curves node arrival ⟨[], after.forwardToClients arrival⟩ after
  | taken {after : AnnounceNode agreement} {destination : SingleOutputDestination} {appData : Bytes}
      (fresh : node.IsFresh arrival) (admits : node.Admits curves arrival destination appData)
      (takes : node.Takes profile arrival destination after)
      (blackholes : after.blackholeTable = node.blackholeTable) :
      ReceiveEffect profile curves node arrival
        ⟨((node.pathRequests.takeDiscovery arrival.later arrival.packet.destination).1.map
          fun responseIface => ⟨.direct responseIface, relayedAnnounce arrival.packet
            arrival.packet.destination node.handler.config.identity arrival.packet.header.hops
            .pathResponse⟩).toList, after.forwardToClients arrival⟩ after

/-- The duplicate filter changes nothing that an announce is admitted by. -/
theorem admits_filtered {arrival : AnnounceArrival} {destination : SingleOutputDestination}
    {appData : Bytes} :
    (node.filterDuplicatePackets arrival.now arrival.packet).2.Admits curves arrival destination
      appData ↔ node.Admits curves arrival destination appData := by
  constructor <;>
  · rintro ⟨⟨foreign, valid, unlisted⟩, calm, unlimited⟩
    exact ⟨⟨foreign, valid, unlisted⟩, calm, unlimited⟩

/-- Every reception of an announce has one of the effects. -/
theorem receive_effect {arrival : AnnounceArrival} {outbound : Outbound}
    (received : node.receive profile curves arrival = .ok (outbound, after)) :
    ReceiveEffect profile curves node arrival outbound after := by
  unfold receive at received
  split at received
  · rename_i taken
    obtain ⟨rfl, rfl⟩ := Prod.mk.inj (Except.ok.inj received)
    exact .request taken
  · rename_i transported
    split at received
    · -- Announces are for every transport.
      rename_i rejected
      simp [TransportHandler.acceptsTransportPacket, arrival.announces] at rejected
    · dsimp only at received
      split at received
      · rename_i passed
        obtain ⟨⟨pending, handled⟩, done, rest⟩ := bind_eq_ok.mp received
        obtain ⟨rfl, rfl⟩ := Prod.mk.inj (Except.ok.inj rest)
        -- What the first part admits is taken, and what it does not is dropped.
        cases admitted : ((node.filterDuplicatePackets arrival.now arrival.packet).2.admitAnnounce
            curves arrival).1 with
        | none =>
          rw [handleAnnounce_dropped admitted] at done
          obtain ⟨limits, count, kept⟩ := @admitAnnounce_keeps agreement curves
            (node.filterDuplicatePackets arrival.now arrival.packet).2 arrival
          obtain ⟨rfl, rfl⟩ := Prod.mk.inj (Except.ok.inj done)
          refine .refused ⟨transported, passed⟩ ?_ fun destination appData admits => ?_
          · rw [kept]
            exact ⟨rfl, rfl, rfl, rfl⟩
          · rw [admitAnnounce_eq_some.mpr (admits_filtered.mpr admits)] at admitted
            cases admitted
        | some told =>
          obtain ⟨destination, appData⟩ := told
          have admits := admitAnnounce_eq_some.mp admitted
          obtain ⟨blackholes, rfl⟩ := admits.answers done
          obtain ⟨remotes, paths, heard, queued, left⟩ := admits.takes done
          exact .taken ⟨transported, passed⟩ (admits_filtered.mp admits)
            ⟨remotes, paths, heard, queued, left⟩ blackholes
      · rename_i dropped
        obtain ⟨rfl, rfl⟩ := Prod.mk.inj (Except.ok.inj received)
        exact .duplicate ⟨rfl, rfl, rfl, rfl⟩ (by simpa using dropped)

end AnnounceNode

end Reticulum
