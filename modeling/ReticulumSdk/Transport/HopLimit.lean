import ReticulumSdk.Transport.NodeCallLaws

/-! How many hops the announces have that a node keeps and passes on. -/

namespace Reticulum

/-- No message is for more hops than a packet travels. -/
def MessagesLimited (sent : List TxMessage) : Prop :=
  ∀ message ∈ sent, message.packet.header.hops ≤ PATHFINDER_M

namespace AnnounceNode

/-- Nothing that a node keeps of announces is over more hops than a packet travels. -/
structure HopLimited {agreement : KeyAgreement} (node : AnnounceNode agreement) : Prop where
  paths : ∀ destination path, node.pathTable.get destination = some path → path.hops ≤ PATHFINDER_M
  queued : ∀ destination entry, node.announceTable.map.lookup destination = some entry →
    entry.hops ≤ PATHFINDER_M
  pending : ∀ destination entry, node.announceTable.responses.lookup destination = some entry →
    entry.hops ≤ PATHFINDER_M
  archived : ∀ destination entry, node.announceTable.cache.Holds destination entry →
    entry.hops ≤ PATHFINDER_M

variable {agreement : KeyAgreement} {profile : Profile} {curves : Curves}
  {node after : AnnounceNode agreement} {arrival : AnnounceArrival} {call : NodeCall}
  {sent : List TxMessage} {outbound : Outbound}

namespace HopLimited

/-- What is taken away leaves the rest within the limit. -/
theorem keep (limited : node.HopLimited) (keeps : Keeps node after) : after.HopLimited where
  -- Whatever is found afterwards was found before, over as many hops at least.
  paths destination path found := by
    obtain ⟨known, before, shorter⟩ := keeps.paths destination path found
    exact UInt8.le_trans shorter (limited.paths destination known before)
  queued destination entry found := by
    obtain ⟨known, before, same⟩ := keeps.announces.queued destination entry found
    exact same ▸ limited.queued destination known before
  pending destination entry found := by
    obtain ⟨known, before, same⟩ := keeps.announces.pending destination entry found
    exact same ▸ limited.pending destination known before
  archived destination entry held := by
    rcases keeps.announces.archived destination entry held with archived | queued
    · exact limited.archived destination entry archived
    · exact limited.queued destination entry queued

/-- A path request keeps the limit, and what it sends is within it. -/
theorem handlePathRequest (limited : node.HopLimited) (arrival : AnnounceArrival) :
    (node.handlePathRequest arrival).2.HopLimited ∧
      MessagesLimited (node.handlePathRequest arrival).1 := by
  have effect := handlePathRequest_effect node arrival
  generalize node.handlePathRequest arrival = result at effect ⊢
  cases effect with
  | answered sent pathRequests hops =>
    refine ⟨⟨limited.paths, limited.queued, limited.pending, limited.archived⟩, fun message member => ?_⟩
    rcases hops message member with own | ⟨destination, path, found, same⟩
    · exact own ▸ UInt8.zero_le
    · exact same ▸ limited.paths destination path found
  | scheduled destination path grace pathRequests found =>
    refine ⟨⟨limited.paths, ?_, ?_, ?_⟩, fun _ none => nomatch none⟩
    · intro other entry queued
      rw [AnnounceTable.addResponse_map] at queued
      exact limited.queued other entry queued
    · -- The response has the hops of the path.
      intro other entry pending
      rcases AnnounceTable.addResponse_pending pending with ⟨-, hops⟩ | before
      · exact hops ▸ limited.paths destination path found
      · exact limited.pending other entry before
    · intro other entry held
      rw [AnnounceTable.addResponse_cache] at held
      exact limited.archived other entry held

end HopLimited

/-- An announce is queued, and not as the echo of one that is. -/
def Queues (node : AnnounceNode agreement) (arrival : AnnounceArrival) : Prop :=
  ¬ node.Echoes arrival ∧ node.Relays arrival

/--
Nothing comes of an announce: there is no other client to forward it to, and unless it is refused, it
is not queued, its path is no better than the one there is, and no discovery waits for it.
-/
structure Idle (curves : Curves) (node : AnnounceNode agreement) (arrival : AnnounceArrival) : Prop where
  clients : arrival.ifaces.rpcInstanceClientsExcept arrival.iface = []
  unused : ∀ destination appData, node.Admits curves arrival destination appData →
    ¬ node.Queues arrival ∧ node.pathTable.wouldUpdatePath arrival.later arrival.packet
        arrival.route.gravity arrival.route.bitrate = false ∧
      (node.pathRequests.takeDiscovery arrival.later arrival.packet.destination).1 = none

/-- An announce is within the limit, or nothing of it gets further than its reception. -/
def WithinLimit (curves : Curves) (node : AnnounceNode agreement) (arrival : AnnounceArrival) : Prop :=
  arrival.packet.header.hops ≤ PATHFINDER_M ∨ ¬ node.IsFresh arrival ∨ node.Idle curves arrival

/-- The clients hear of an announce with the hops it has. -/
theorem forwardToClients_hops (node : AnnounceNode agreement) (arrival : AnnounceArrival)
    {message : TxMessage} (sent : message ∈ node.forwardToClients arrival) :
    message.packet.header.hops = arrival.packet.header.hops := by
  obtain ⟨iface, -, rfl⟩ := List.mem_map.mp sent
  rfl

/-- What is taken of an announce within the limit is within it. -/
private theorem HopLimited.take (limited : node.HopLimited) {destination : SingleOutputDestination}
    (takes : node.Takes profile arrival destination after)
    (paths : arrival.packet.header.hops ≤ PATHFINDER_M ∨ node.pathTable.wouldUpdatePath arrival.later
      arrival.packet arrival.route.gravity arrival.route.bitrate = false)
    (queues : arrival.packet.header.hops ≤ PATHFINDER_M ∨ ¬ node.Queues arrival) :
    after.HopLimited := by
  have table : after.announceTable = node.announceTable.add arrival.now arrival.random arrival.packet
        arrival.packet.destination arrival.iface ∧ arrival.packet.header.hops ≤ PATHFINDER_M ∨
      AnnounceTable.Within node.announceTable after.announceTable := by
    -- The announce is counted as an echo, queued, or left.
    by_cases echoes : node.Echoes arrival
    · obtain ⟨removed, heard⟩ := takes.heard echoes
      exact .inr (AnnounceTable.echoReceived_within heard)
    · by_cases relays : node.Relays arrival
      · rcases queues with short | idle
        · exact .inl ⟨takes.queued echoes relays, short⟩
        · exact absurd ⟨echoes, relays⟩ idle
      · rw [takes.left echoes relays]
        exact .inr (.refl _)
  have routes : ∀ destination path, after.pathTable.get destination = some path →
      path.hops ≤ PATHFINDER_M := by
    -- A path is what it was, or the one that is installed.
    intro destination path found
    rw [takes.paths] at found
    unfold AnnouncedPaths.handleAnnounce at found
    split at found
    · rename_i better
      obtain ⟨-, rfl⟩ | ⟨-, before⟩ := Table.of_lookup_insert found
      · rcases paths with short | worse
        · exact short
        · rw [better] at worse
          cases worse
      · exact limited.paths destination path before
    · exact limited.paths destination path found
  rcases table with ⟨added, short⟩ | within
  · refine ⟨routes, ?_, ?_, ?_⟩
    · intro destination entry found
      rw [added] at found
      obtain ⟨-, rfl⟩ | ⟨-, before⟩ := Table.of_lookup_insert found
      · exact short
      · exact limited.queued destination entry before
    · intro destination entry found
      rw [added] at found
      exact limited.pending destination entry found
    · intro destination entry held
      rw [added] at held
      exact limited.archived destination entry held
  · -- Apart from the paths, everything was there before.
    have keeps : Keeps node { node with announceTable := after.announceTable } :=
      { Keeps.refl node with announces := within }
    have kept := limited.keep keeps
    exact ⟨routes, kept.queued, kept.pending, kept.archived⟩

/-- The same announces are within the same limit. -/
private theorem HopLimited.same (limited : node.HopLimited) (same : SameAnnounces node after) :
    after.HopLimited where
  paths := same.paths ▸ limited.paths
  queued := same.announces ▸ limited.queued
  pending := same.announces ▸ limited.pending
  archived := same.announces ▸ limited.archived

/-- An announce within the limit keeps the node within it, and everything that is sent. -/
theorem HopLimited.receive (limited : node.HopLimited) (within : node.WithinLimit curves arrival)
    (received : node.receive profile curves arrival = .ok (outbound, after)) :
    after.HopLimited ∧ MessagesLimited (outbound.handled ++ outbound.forwarded) := by
  have effect := receive_effect received
  cases effect with
  | request taken =>
    obtain ⟨kept, short⟩ := limited.handlePathRequest arrival
    exact ⟨kept, fun message sent => short message (by simpa using sent)⟩
  | duplicate same dropped => exact ⟨limited.same same, fun _ none => nomatch none⟩
  | refused fresh same refused =>
    refine ⟨limited.same same, fun message sent => ?_⟩
    have forwarded : message ∈ after.forwardToClients arrival := by simpa using sent
    rcases within with short | filtered | idle
    · rw [forwardToClients_hops after arrival forwarded]
      exact short
    · exact absurd fresh filtered
    · -- There is no client to forward it to.
      simp [forwardToClients, idle.clients] at forwarded
  | taken fresh admits takes blackholes =>
    rcases within with short | filtered | idle
    · refine ⟨limited.take takes (.inl short) (.inl short), fun message sent => ?_⟩
      rcases List.mem_append.mp sent with answered | forwarded
      · obtain ⟨iface, -, rfl⟩ := Option.map_eq_some_iff.mp (Option.mem_toList.mp answered)
        exact short
      · rw [forwardToClients_hops after arrival forwarded]
        exact short
    · exact absurd fresh filtered
    · obtain ⟨unqueued, worse, unasked⟩ := idle.unused _ _ admits
      refine ⟨limited.take takes (.inr worse) (.inr unqueued), fun message sent => ?_⟩
      simp [forwardToClients, idle.clients, unasked] at sent

/-- An announce arrives within the limit, or nothing comes of it; any other call will do. -/
def Heeds (curves : Curves) (node : AnnounceNode agreement) : NodeCall → Prop
  | .announce arrival => node.WithinLimit curves arrival.received
  | _ => True

/-- A call that heeds the limit keeps it. -/
theorem HopLimited.step (limited : node.HopLimited) (heeds : node.Heeds curves call)
    (step : node.Steps profile curves (call, sent) after) : after.HopLimited ∧ MessagesLimited sent := by
  by_cases announces : ∃ arrival, call = .announce arrival
  · obtain ⟨arrival, rfl⟩ := announces
    obtain ⟨⟨outbound, left⟩, received, done⟩ := bind_eq_ok.mp step
    obtain ⟨rfl, rfl⟩ := Prod.mk.inj (Except.ok.inj done)
    exact limited.receive heeds received
  · by_cases asks : ∃ arrival, call = .pathRequest arrival
    · obtain ⟨arrival, rfl⟩ := asks
      obtain ⟨rfl, rfl⟩ := Prod.mk.inj (Except.ok.inj step)
      exact limited.handlePathRequest arrival
    · -- Whatever else is sent was in the announce table.
      have others : ∀ arrival, call ≠ .announce arrival :=
        fun arrival same => announces ⟨arrival, same⟩
      have rest : ∀ arrival, call ≠ .pathRequest arrival := fun arrival same => asks ⟨arrival, same⟩
      refine ⟨limited.keep (handle_keeps step others rest), fun message member => ?_⟩
      obtain ⟨destination, entry, held, same⟩ := handle_hops step others rest member
      rw [same]
      rcases held with queued | pending | archived
      · exact limited.queued destination entry queued
      · exact limited.pending destination entry pending
      · exact limited.archived destination entry archived

/-- Calls that heed the limit keep it, in any order. -/
theorem HopLimited.run {exchanges : List (NodeCall × List TxMessage)} (limited : node.HopLimited)
    (run : Run (fun node exchange after => node.Steps profile curves exchange after ∧
      node.Heeds curves exchange.1) node exchanges after) :
    after.HopLimited ∧ ∀ exchange ∈ exchanges, MessagesLimited exchange.2 := by
  -- Step by step, with what was sent so far.
  induction run with
  | done node => exact ⟨limited, fun _ none => nomatch none⟩
  | next first rest ih =>
    obtain ⟨kept, short⟩ := limited.step first.2 first.1
    obtain ⟨last, later⟩ := ih kept
    refine ⟨last, fun exchange member => ?_⟩
    rcases List.mem_cons.mp member with rfl | behind
    · exact short
    · exact later exchange behind

end AnnounceNode

end Reticulum
