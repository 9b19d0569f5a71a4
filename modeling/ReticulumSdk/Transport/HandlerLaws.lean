import ReticulumSdk.Link.MachineLaws
import ReticulumSdk.Transport.Handler
import ReticulumSdk.Transport.LinkTableLaws

/-! What the transport's handlers keep of its state, and which messages they send. -/

namespace Reticulum.TransportHandler

variable {crates : Crates} {around : Surroundings} {handler after : TransportHandler}
  {packet : Packet} {iface : AddressHash} {pending : List TxMessage}

/-- The parts of a transport that only relaying and routing write to. -/
structure SameRoutes (handler after : TransportHandler) : Prop where
  linkTable : after.linkTable = handler.linkTable
  pathTable : after.pathTable = handler.pathTable

/-- Preparing a link packet touches no route and leaves the packet as it is. -/
theorem prepare_link (handler : TransportHandler) (now : Instant) (link : packet.header.destinationType = .link) :
    (handler.prepare now packet).1.packet = packet ∧
      SameRoutes handler (handler.prepare now packet).2 := by
  unfold prepare
  rw [if_pos link]
  exact ⟨rfl, rfl, rfl⟩

/-- Preparing a packet writes to the path table and the cache. -/
theorem prepare_frame (handler : TransportHandler) (now : Instant) (packet : Packet) :
    (handler.prepare now packet).2 = { handler with
      pathTable := (handler.prepare now packet).2.pathTable
      packetCache := (handler.prepare now packet).2.packetCache } := by
  unfold prepare
  split
  · rfl
  · split <;> rfl

/-- An in-link's packet touches no route, and no answer to it is a copy of it. -/
theorem dataToInLink_ok (data : packet.header.packetType = .data)
    (handled : handler.dataToInLink crates around packet iface = .ok (after, pending)) :
    SameRoutes handler after ∧ ∀ message ∈ pending, ¬ SameMessage packet message.packet := by
  unfold dataToInLink at handled
  split at handled
  · obtain ⟨rfl, rfl⟩ := Prod.mk.inj (Except.ok.inj handled)
    exact ⟨⟨rfl, rfl⟩, by simp⟩
  · rename_i inLink found
    obtain ⟨⟨result, link⟩, called, finished⟩ := bind_eq_ok.mp handled
    dsimp only at finished
    split at finished
    · obtain ⟨rfl, rfl⟩ := Prod.mk.inj (Except.ok.inj finished)
      exact ⟨⟨rfl, rfl⟩, by simp⟩
    · -- A keepalive is answered with another byte.
      have request := LocalLink.handlePacketFrom_keepAlive data called
      obtain ⟨rfl, rfl⟩ := Prod.mk.inj (Except.ok.inj finished)
      have response : (link.keepAlivePacket KEEP_ALIVE_RESPONSE).header.destinationType = .link := rfl
      have prepared := prepare_link { handler with
        inLinks := handler.inLinks.insert packet.destination link } around.now response
      refine ⟨⟨prepared.2.linkTable, prepared.2.pathTable⟩, fun message member same => ?_⟩
      obtain rfl := List.mem_singleton.mp member
      have copied := same.data
      rw [prepared.1] at copied
      rw [← copied] at request
      simp [LocalLink.keepAlivePacket, KEEP_ALIVE_REQUEST, KEEP_ALIVE_RESPONSE] at request
    · -- A message is answered with a proof.
      rename_i proof
      have built := (LocalLink.handlePacketFrom_proof data called).2
      obtain ⟨rfl, rfl⟩ := Prod.mk.inj (Except.ok.inj finished)
      have proves : proof.header.destinationType = .link := by
        rw [built]
        rfl
      have prepared := prepare_link { handler with
        inLinks := handler.inLinks.insert packet.destination link } around.now proves
      refine ⟨⟨prepared.2.linkTable, prepared.2.pathTable⟩, fun message member same => ?_⟩
      obtain rfl := List.mem_singleton.mp member
      have copied := same.packetType
      rw [prepared.1, data, built] at copied
      cases copied
    · obtain ⟨rfl, rfl⟩ := Prod.mk.inj (Except.ok.inj finished)
      exact ⟨⟨rfl, rfl⟩, by simp⟩

/-- Whatever an in-link answers, it is kept as its call left it, and nothing else of the links changes. -/
theorem dataToInLink_inLinks
    (handled : handler.dataToInLink crates around packet iface = .ok (after, pending)) :
    after.inLinks = handler.inLinks ∨ ∃ link result linkAfter,
      handler.inLinks.lookup packet.destination = some link ∧
      link.handlePacketFrom crates around.now packet false iface = .ok (result, linkAfter) ∧
      after.inLinks = handler.inLinks.insert packet.destination linkAfter := by
  -- Whatever the link answered, its new state is put back under the packet's destination.
  unfold dataToInLink at handled
  split at handled
  · obtain ⟨rfl, -⟩ := Prod.mk.inj (Except.ok.inj handled)
    exact .inl rfl
  · rename_i link found
    obtain ⟨⟨result, linkAfter⟩, called, finished⟩ := bind_eq_ok.mp handled
    refine .inr ⟨link, result, linkAfter, found, called, ?_⟩
    have prepared : ∀ answer, (prepare { handler with
        inLinks := handler.inLinks.insert packet.destination linkAfter } around.now answer).2.inLinks =
          handler.inLinks.insert packet.destination linkAfter :=
      fun answer => congrArg (·.inLinks) (prepare_frame _ _ _)
    dsimp only at finished
    split at finished <;> obtain ⟨rfl, -⟩ := Prod.mk.inj (Except.ok.inj finished)
    · rfl
    · exact prepared _
    · exact prepared _
    · rfl

/-- An out-link's packet touches no route. -/
theorem dataToOutLink_ok
    (handled : handler.dataToOutLink crates around packet iface = .ok after) :
    SameRoutes handler after := by
  -- The out-link stage changes links and the packet cache, never the routes.
  unfold dataToOutLink at handled
  split at handled
  · obtain rfl := Except.ok.inj handled
    exact ⟨rfl, rfl⟩
  · obtain ⟨⟨result, link⟩, called, finished⟩ := bind_eq_ok.mp handled
    dsimp only at finished
    split at finished <;>
    · obtain rfl := Except.ok.inj finished
      exact ⟨rfl, rfl⟩

/-- What `handle_data` sends for a link: answers of its own links, and what it relays. -/
theorem handleLinkData_ok (data : packet.header.packetType = .data)
    (handled : handler.handleLinkData crates around packet iface = .ok (after, pending)) :
    ∃ answers middle, SameRoutes handler middle ∧
      (∀ message ∈ answers, ¬ SameMessage packet message.packet) ∧
      pending = answers ++ (middle.relayData around.now packet iface).2 := by
  -- The answers are the in-link's; what follows them is what the routes relay.
  obtain ⟨⟨first, answers⟩, answered, rest⟩ := bind_eq_ok.mp handled
  obtain ⟨second, passed, finished⟩ := bind_eq_ok.mp rest
  obtain ⟨routes, others⟩ := dataToInLink_ok data answered
  have kept := dataToOutLink_ok passed
  obtain ⟨-, rfl⟩ := Prod.mk.inj (Except.ok.inj finished)
  exact ⟨answers, second, ⟨kept.linkTable.trans routes.linkTable,
    kept.pathTable.trans routes.pathTable⟩, others, rfl⟩

/-- The link table decides what a relayed proof does to it. -/
theorem relayProof_linkTable : (handler.relayProof crates around packet iface).1.linkTable =
    (handler.linkTable.handleProof around.now packet iface).2 := by
  unfold relayProof
  split <;> rename_i handled
  · rw [handled]
  · -- A rebalance writes to the path table only.
    simp only [handled]
    split
    · split <;> rfl
    · rfl

/-- And where the proof goes. -/
theorem relayProof_snd : (handler.relayProof crates around packet iface).2 =
    ((handler.linkTable.handleProof around.now packet iface).1.map fun outcome =>
      (⟨.direct outcome.propagation.2, outcome.propagation.1⟩ : TxMessage)).toList := by
  unfold relayProof
  split <;> rename_i handled <;> rw [handled] <;> rfl

/-- A rebalance the table asks for is applied when it is enabled and the proof verifies. -/
theorem relayProof_pathTable {outcome : HandleProofOutcome} {table : LinkTable}
    {info : RebalanceInfo}
    (handled : handler.linkTable.handleProof around.now packet iface = (some outcome, table))
    (asked : outcome.rebalance = some info) (enabled : handler.config.pathRebalance = true)
    (verified : handler.verifyRelayLrproof crates around packet info.destination = true) :
    (handler.relayProof crates around packet iface).1.pathTable =
      handler.pathTable.rebalanceHops info.destination info.hops := by
  have same : verifyRelayLrproof crates around { handler with linkTable := table } packet
      info.destination = true := verified
  simp [relayProof, handled, asked, enabled, same, applyPathRebalance]

/-- The parts of a transport that hold its own links. -/
structure SameLinks (handler after : TransportHandler) : Prop where
  inLinks : after.inLinks = handler.inLinks
  outLink : after.outLink = handler.outLink
  outLinksByLinkId : after.outLinksByLinkId = handler.outLinksByLinkId

namespace SameLinks

variable {middle : TransportHandler}

/-- Links stay the same through one step and the next. -/
theorem trans (first : SameLinks handler middle) (second : SameLinks middle after) :
    SameLinks handler after where
  inLinks := second.inLinks.trans first.inLinks
  outLink := second.outLink.trans first.outLink
  outLinksByLinkId := second.outLinksByLinkId.trans first.outLinksByLinkId

/-- A link address names the same out-link. -/
theorem outLinkById (same : SameLinks handler after) (linkId : AddressHash) :
    after.outLinkById linkId = handler.outLinkById linkId := by
  unfold TransportHandler.outLinkById
  rw [same.outLink, same.outLinksByLinkId]

end SameLinks

/-- A receipt writes to the tracked packets and the receipts. -/
theorem takeReceipt_frame (handler : TransportHandler) (packet : Packet) (radio : Radio) :
    handler.takeReceipt packet radio = { handler with
      pendingProofs := (handler.takeReceipt packet radio).pendingProofs
      receipts := (handler.takeReceipt packet radio).receipts } := by
  unfold takeReceipt
  split <;> rfl

/-- Relaying a proof writes to the link table and the path table. -/
theorem relayProof_frame (crates : Crates) (around : Surroundings) (handler : TransportHandler)
    (packet : Packet) (iface : AddressHash) :
    (handler.relayProof crates around packet iface).1 = { handler with
      linkTable := (handler.relayProof crates around packet iface).1.linkTable
      pathTable := (handler.relayProof crates around packet iface).1.pathTable } := by
  -- Relaying a proof refreshes its link's entry and at most the path it came over.
  unfold relayProof
  split
  · rfl
  · dsimp only
    split
    · split <;> rfl
    · rfl

/-- Sending a proof back writes to the reverse table. -/
theorem reverseProof_frame (handler : TransportHandler) (packet : Packet) (iface : AddressHash) :
    (handler.reverseProof packet iface).1 = { handler with
      reverseTable := (handler.reverseProof packet iface).1.reverseTable } := by
  unfold reverseProof
  split <;> rfl

/-- Forwarding a keepalive writes to the link table. -/
private theorem handleKeepaliveResponse_frame (handler : TransportHandler) (now : Instant)
    (packet : Packet) : (handler.handleKeepaliveResponse now packet).2.2 = { handler with
      linkTable := (handler.handleKeepaliveResponse now packet).2.2.linkTable } := by
  -- Every branch returns the handler as it is or with the link's entry refreshed.
  unfold handleKeepaliveResponse
  split
  · split
    · rfl
    · split
      · split <;> rfl
      · rfl
  · rfl

/-- Relaying data writes to the link table and the path table. -/
theorem relayData_frame (handler : TransportHandler) (now : Instant) (packet : Packet)
    (iface : AddressHash) : (handler.relayData now packet iface).1 = { handler with
      linkTable := (handler.relayData now packet iface).1.linkTable
      pathTable := (handler.relayData now packet iface).1.pathTable } := by
  -- A keepalive response is tried first; the link table and the path table are all that relaying
  -- changes.
  have kept := handleKeepaliveResponse_frame handler now packet
  unfold relayData
  split <;> rename_i forwarded <;> rw [forwarded] at kept <;> dsimp only at kept
  · rw [kept]
  · rw [kept]
    split
    · rfl
    · dsimp only
      split
      · rfl
      · split <;> rfl

/-- Relaying data touches no link. -/
theorem relayData_sameLinks (handler : TransportHandler) (now : Instant) (packet : Packet)
    (iface : AddressHash) : SameLinks handler (handler.relayData now packet iface).1 := by
  rw [relayData_frame]
  exact ⟨rfl, rfl, rfl⟩

/-- A proof for an out-link is given to it, and otherwise only announced and routed. -/
theorem proofToOutLink_frame
    (handled : handler.proofToOutLink crates around packet iface = .ok (after, pending)) :
    after = { handler with
      outLink := after.outLink
      linkIfaces := after.linkIfaces
      pathTable := after.pathTable
      packetCache := after.packetCache } := by
  -- An activation also binds the link's interface and queues the round-trip packet.
  unfold proofToOutLink at handled
  split at handled
  · obtain ⟨rfl, -⟩ := Prod.mk.inj (Except.ok.inj handled)
    rfl
  · obtain ⟨⟨result, linkAfter⟩, -, finished⟩ := bind_eq_ok.mp handled
    dsimp only at finished
    split at finished
    · obtain ⟨rfl, -⟩ := Prod.mk.inj (Except.ok.inj finished)
      rfl
    · obtain ⟨rttPacket, -, sent⟩ := bind_eq_ok.mp finished
      split at sent <;>
      · obtain ⟨rfl, -⟩ := Prod.mk.inj (Except.ok.inj sent)
        rw [prepare_frame]
        rfl
    · obtain ⟨rfl, -⟩ := Prod.mk.inj (Except.ok.inj finished)
      rfl

/-- An out-link that a call changed is found changed. -/
theorem setOutLink_outLinkById {place : Nat}
    (found : handler.outLinksByLinkId.lookup packet.destination = some place) (link : LocalLink) :
    (handler.setOutLink place link).outLinkById packet.destination = some link := by
  simp [outLinkById, setOutLink, found]

/-- A proof is given to the out-link it is addressed to, which answers no message. -/
theorem proofToOutLink_links
    (handled : handler.proofToOutLink crates around packet iface = .ok (after, pending)) :
    after.inLinks = handler.inLinks ∧
      ∀ link, handler.outLinkById packet.destination = some link → ∃ result linkAfter,
        link.handlePacketFrom crates around.now packet true iface = .ok (result, linkAfter) ∧
          after.outLinkById packet.destination = some linkAfter := by
  unfold proofToOutLink at handled
  split at handled <;> rename_i found
  · obtain ⟨rfl, rfl⟩ := Prod.mk.inj (Except.ok.inj handled)
    exact ⟨rfl, fun link here => by simp [outLinkById, found] at here⟩
  · rename_i place
    obtain ⟨⟨result, linkAfter⟩, called, finished⟩ := bind_eq_ok.mp handled
    have changed : after.inLinks = handler.inLinks ∧
        after.outLinkById packet.destination = some linkAfter := by
      -- Whatever the result, only the out-link's own call changes a link.
      have same : SameLinks (handler.setOutLink place linkAfter) after := by
        dsimp only at finished
        split at finished
        · obtain ⟨rfl, rfl⟩ := Prod.mk.inj (Except.ok.inj finished)
          exact ⟨rfl, rfl, rfl⟩
        · obtain ⟨rttPacket, -, sent⟩ := bind_eq_ok.mp finished
          split at sent <;>
          · obtain ⟨rfl, rfl⟩ := Prod.mk.inj (Except.ok.inj sent)
            rw [prepare_frame]
            exact ⟨rfl, rfl, rfl⟩
        · obtain ⟨rfl, rfl⟩ := Prod.mk.inj (Except.ok.inj finished)
          exact ⟨rfl, rfl, rfl⟩
      exact ⟨same.inLinks, by rw [same.outLinkById, setOutLink_outLinkById found]⟩
    refine ⟨changed.1, fun link here => ⟨result, linkAfter, ?_, changed.2⟩⟩
    rw [outLinkById, found] at here
    rw [← Option.some.inj here]
    exact called

/-- The parts of `handle_proof`, one after the other. -/
theorem handleProof_ok {radio : Radio}
    (handled : handler.handleProof crates around packet radio iface = .ok (after, pending)) :
    ∃ first activation, handler.proofToOutLink crates around packet iface = .ok (first, activation) ∧
      let relayed := (first.takeReceipt packet radio).relayProof crates around packet iface
      after = (relayed.1.reverseProof packet iface).1 ∧
        pending = activation ++ relayed.2 ++ (relayed.1.reverseProof packet iface).2 := by
  obtain ⟨⟨first, activation⟩, called, finished⟩ := bind_eq_ok.mp handled
  obtain ⟨rfl, rfl⟩ := Prod.mk.inj (Except.ok.inj finished)
  exact ⟨first, activation, called, rfl, rfl⟩

/-- `handle_proof` gives a proof to the out-link it is addressed to, and to no in-link. -/
theorem handleProof_links {radio : Radio}
    (handled : handler.handleProof crates around packet radio iface = .ok (after, pending)) :
    after.inLinks = handler.inLinks ∧
      ∀ link, handler.outLinkById packet.destination = some link → ∃ result linkAfter,
        link.handlePacketFrom crates around.now packet true iface = .ok (result, linkAfter) ∧
          after.outLinkById packet.destination = some linkAfter := by
  -- The later stages leave the links as the out-link stage left them.
  obtain ⟨first, activation, called, ended, -⟩ := handleProof_ok handled
  obtain ⟨inLinks, reached⟩ := proofToOutLink_links called
  have same : SameLinks first after := by
    rw [ended, reverseProof_frame, relayProof_frame, takeReceipt_frame]
    exact ⟨rfl, rfl, rfl⟩
  refine ⟨same.inLinks.trans inLinks, fun link here => ?_⟩
  obtain ⟨result, linkAfter, given, kept⟩ := reached link here
  exact ⟨result, linkAfter, given, by rw [same.outLinkById, kept]⟩

end Reticulum.TransportHandler
