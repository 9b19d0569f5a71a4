import ReticulumSdk.Transport.Dispatch

/-! What the duplicate filter leaves of packets that are sent again unchanged. -/

namespace Reticulum

/--
A packet that recovers from loss by being sent again as it is: a link-request proof, a part of a
resource, or the proof of one.
-/
structure Packet.IsResent (packet : Packet) : Prop where
  kind : (packet.header.packetType = .proof ∧
      (packet.context = .linkRequestProof ∨ packet.context = .resourceProof)) ∨
    (packet.header.packetType = .data ∧ packet.context = .resource)
  link : packet.header.destinationType = .link
  direct : packet.transport = none
  /-- No link has the address of the path requests. -/
  transported : packet.destination ≠ fixedDestPathRequests

namespace LocalLink

variable {link : LocalLink} {packet : Packet} {data : Bytes}

/-- Proving a link again gives the proof it gave before. -/
theorem prove_again (link : LocalLink) : link.prove.1.prove.2 = link.prove.2 := by
  unfold prove
  by_cases active : link.status = .active
  · simp [active]
  · simp [active, postEvent]

/-- The proof of a link is sent again as it is. -/
theorem prove_isResent (transported : link.id ≠ fixedDestPathRequests) : link.prove.2.IsResent := by
  unfold prove
  dsimp only
  split <;> exact ⟨.inl ⟨rfl, .inl rfl⟩, rfl, rfl, transported⟩

/-- What a raw data packet of a link is, once it is built. -/
private theorem rawDataPacket_ok {context : PacketContext} {packetType : PacketType}
    (built : link.rawDataPacket data context packetType = .ok packet) :
    packet = {
      header := Link.header packetType
      destination := link.id
      transport := none
      context := context
      data := data } := by
  -- It is built behind the checks of the status and of the size only.
  unfold rawDataPacket at built
  split at built
  · cases built
  · split at built
    · cases built
    · exact (Except.ok.inj built).symm

/-- So is a part of a resource. -/
theorem resourcePartPacket_isResent (transported : link.id ≠ fixedDestPathRequests)
    (built : link.resourcePartPacket data = .ok packet) : packet.IsResent := by
  obtain rfl := rawDataPacket_ok built
  exact ⟨.inr ⟨rfl, rfl⟩, rfl, rfl, transported⟩

/-- And the proof of a resource. -/
theorem resourceProofPacket_isResent (transported : link.id ≠ fixedDestPathRequests)
    (built : link.resourceProofPacket data = .ok packet) : packet.IsResent := by
  obtain rfl := rawDataPacket_ok built
  exact ⟨.inl ⟨rfl, .inr rfl⟩, rfl, rfl, transported⟩

/-- A packet from the right side, of which the link has handled no copy. -/
def Awaits (link : LocalLink) (packet : Packet) (iface : AddressHash) : Prop :=
  link.acceptsInterface iface = true ∧ ∀ earlier ∈ link.handled, earlier.hash ≠ packet.hash

end LocalLink

namespace TransportHandler

/-- The relay has a live link that leads a packet on: it comes from one side with the right count. -/
def Routes (handler : TransportHandler) (arrival : Arrival) (outbound : AddressHash) : Prop :=
  ∃ entry, handler.linkTable.lookup arrival.packet.destination = some entry ∧
    if arrival.packet.header.packetType = .proof then
      entry.proofRoute arrival.packet.isLrproof arrival.packet.header.hops arrival.iface =
        some outbound
    else entry.validated = true ∧
      entry.packetRoute arrival.packet.header.hops arrival.iface = some outbound

/-- The in-link a packet is for awaits it. A link-request proof is for no in-link. -/
def InLinkAwaits (handler : TransportHandler) (arrival : Arrival) (link : LocalLink) : Prop :=
  arrival.packet.context ≠ .linkRequestProof ∧
    handler.inLinks.lookup arrival.packet.destination = some link ∧
    link.Awaits arrival.packet arrival.iface

/-- The out-link a packet is for awaits it. -/
def OutLinkAwaits (handler : TransportHandler) (arrival : Arrival) (link : LocalLink) : Prop :=
  handler.outLinkById arrival.packet.destination = some link ∧
    link.Awaits arrival.packet arrival.iface

/-- Some link needs the packet: one that is relayed, or one of the node itself. -/
def Needs (handler : TransportHandler) (arrival : Arrival) : Prop :=
  (∃ outbound, handler.Routes arrival outbound) ∨ (∃ link, handler.InLinkAwaits arrival link) ∨
    ∃ link, handler.OutLinkAwaits arrival link

/--
A packet that is needed recovers from loss: it passes the filter, the relay forwards it, and the
link of the node that has not handled a copy handles it.
-/
structure Recovers (handler : TransportHandler) (arrival : Arrival) (after : TransportHandler)
    (pending : List TxMessage) : Prop where
  passes : handler.Needs arrival →
    (handler.filterDuplicatePackets arrival.around.now arrival.packet).1 = true
  relayed : ∀ outbound, handler.Routes arrival outbound →
    ⟨.direct outbound, (propagate arrival.packet outbound).1⟩ ∈ pending
  inLink : ∀ link, handler.InLinkAwaits arrival link →
    ∃ linkAfter, after.inLinks.lookup arrival.packet.destination = some linkAfter ∧
      linkAfter.handled = link.handled ++ [arrival.packet]
  outLink : ∀ link, handler.OutLinkAwaits arrival link →
    ∃ linkAfter, after.outLinkById arrival.packet.destination = some linkAfter ∧
      linkAfter.handled = link.handled ++ [arrival.packet]

/-- A link-request proof for an in-link that is not yet active, which the filter lets through. -/
def Excepted (handler : TransportHandler) (packet : Packet) : Prop :=
  packet.context = .linkRequestProof ∧
    ∃ link, handler.inLinks.lookup packet.destination = some link ∧ link.status.notYetActive = true

/--
The cache has forgotten a packet that is needed, or the filter makes an exception for it; and the
proof of a resource is for no in-link.
-/
structure Forgotten (handler : TransportHandler) (arrival : Arrival) : Prop where
  cache : handler.Needs arrival →
    ¬ handler.packetCache.Knows arrival.packet ∨ handler.Excepted arrival.packet
  proof : arrival.packet.context = .resourceProof → ∀ link, ¬ handler.InLinkAwaits arrival link

variable {crates : Crates} {handler after : TransportHandler} {arrival : Arrival} {packet : Packet}
  {pending : List TxMessage}

/-- The only exception for packets sent again is the one for link-request proofs. -/
theorem allowDuplicate_resent (resent : packet.IsResent) :
    handler.allowDuplicate packet = true ↔ handler.Excepted packet := by
  unfold allowDuplicate Excepted
  rcases resent.kind with ⟨proof, -⟩ | ⟨data, context⟩
  · simp only [proof, Option.any_eq_true, decide_eq_true_eq]
  · simp [data, context]

/-- When a packet sent again passes the filter. -/
theorem filterDuplicatePackets_resent (now : Instant) (resent : packet.IsResent) :
    (handler.filterDuplicatePackets now packet).1 = true ↔
      ¬ handler.packetCache.Knows packet ∨ handler.Excepted packet := by
  rw [← allowDuplicate_resent resent, ← handler.packetCache.update_fst now packet]
  simp [filterDuplicatePackets]

/-- The filter leaves the in-links. -/
private theorem filterDuplicatePackets_inLinks {now : Instant} {passed : Bool}
    (filtered : handler.filterDuplicatePackets now packet = (passed, after)) :
    after.inLinks = handler.inLinks := by
  obtain rfl : (handler.filterDuplicatePackets now packet).2 = after := by rw [filtered]
  rfl

/-- A proof the link table leads on is forwarded by `handle_proof`. -/
private theorem handleProof_relays {outbound : AddressHash} {radio : Radio} {around : Surroundings}
    {iface : AddressHash} {entry : LinkEntry}
    (handled : handler.handleProof crates around packet radio iface = .ok (after, pending))
    (found : handler.linkTable.lookup packet.destination = some entry)
    (route : entry.proofRoute packet.isLrproof packet.header.hops iface = some outbound) :
    ⟨.direct outbound, (propagate packet outbound).1⟩ ∈ pending := by
  obtain ⟨first, activation, called, -, sent⟩ := handleProof_ok handled
  -- Neither the out-link nor the receipt touches the link table.
  have kept : (first.takeReceipt packet radio).linkTable = handler.linkTable := by
    rw [takeReceipt_frame]
    exact congrArg (·.linkTable) (proofToOutLink_frame called)
  rw [sent, relayProof_snd, kept, LinkTable.handleProof_eq around.now found route]
  exact List.mem_append_left _ (List.mem_append_right _ (List.mem_singleton_self _))

/-- Data of a resource the link table leads on is forwarded by `handle_data`. -/
private theorem handleLinkData_relays {outbound : AddressHash} {around : Surroundings}
    {iface : AddressHash} {entry : LinkEntry} (data : packet.header.packetType = .data)
    (resource : packet.context = .resource)
    (handled : handler.handleLinkData crates around packet iface = .ok (after, pending))
    (found : handler.linkTable.lookup packet.destination = some entry)
    (validated : entry.validated = true)
    (route : entry.packetRoute packet.header.hops iface = some outbound) :
    ⟨.direct outbound, (propagate packet outbound).1⟩ ∈ pending := by
  -- A resource packet is no keepalive, so the entry's route is the one it takes.
  obtain ⟨answers, middle, routes, -, rfl⟩ := handleLinkData_ok data handled
  have held : middle.linkTable.lookup packet.destination = some entry := by
    rw [routes.linkTable, found]
  have filled : ¬ packet.IsEmptyKeepalive := fun keepalive => by
    simp [keepalive.1] at resource
  have ordinary : ¬ packet.IsKeepaliveResponse := fun keepalive => by
    simp [keepalive.1] at resource
  rw [relayData_accepted filled ordinary held validated route]
  exact List.mem_append_right _ (List.mem_singleton_self _)

/-- A link that awaits the packet it is given has handled it. -/
private theorem handled_of_awaits {link linkAfter : LocalLink} {outLink : Bool} {now : Instant}
    {iface : AddressHash} {result : LinkHandleResult} (awaits : link.Awaits packet iface)
    (called : link.handlePacketFrom crates now packet outLink iface = .ok (result, linkAfter)) :
    linkAfter.handled = link.handled ++ [packet] := by
  rw [LocalLink.handlePacketFrom_handled called, if_pos awaits.1]

/-- A needed packet that passes the filter recovers, the proof of a resource for an in-link apart. -/
private theorem recovers_of_passed {filtered : TransportHandler} (resent : arrival.packet.IsResent)
    (fresh : handler.filterDuplicatePackets arrival.around.now arrival.packet = (true, filtered))
    (dispatched : filtered.Dispatches crates arrival after pending)
    (proof : arrival.packet.context = .resourceProof → ∀ link, ¬ handler.InLinkAwaits arrival link) :
    handler.Recovers arrival after pending := by
  -- The filter writes to the cache only.
  obtain rfl : (handler.filterDuplicatePackets arrival.around.now arrival.packet).2 = filtered := by
    rw [fresh]
  have passed := congrArg Prod.fst fresh
  rcases resent.kind with ⟨isProof, context⟩ | ⟨isData, context⟩
  · cases dispatched with
    | proof _ handled =>
      obtain ⟨-, reached⟩ := handleProof_links handled
      refine ⟨fun _ => passed, fun outbound route => ?_, fun link awaits => ?_,
        fun link awaits => ?_⟩
      · obtain ⟨entry, found, led⟩ := route
        rw [if_pos isProof] at led
        exact handleProof_relays handled found led
      · exact absurd awaits (proof (context.resolve_left awaits.1) link)
      · obtain ⟨result, linkAfter, called, kept⟩ := reached link awaits.1
        exact ⟨linkAfter, kept, handled_of_awaits awaits.2 called⟩
    | linkRequest kind | linkData kind | announce kind | otherData kind =>
      rw [isProof] at kind
      cases kind
  · cases dispatched with
    | linkData _ _ handled =>
      obtain ⟨-, given, taken⟩ := handleLinkData_links isData handled
      refine ⟨fun _ => passed, fun outbound route => ?_, fun link awaits => ?_,
        fun link awaits => ?_⟩
      · obtain ⟨entry, found, led⟩ := route
        rw [if_neg (by simp [isData])] at led
        exact handleLinkData_relays isData context handled found led.1 led.2
      · obtain ⟨result, linkAfter, called, kept⟩ := given link awaits.2.1
        exact ⟨linkAfter, kept, handled_of_awaits awaits.2.2 called⟩
      · obtain ⟨result, linkAfter, called, kept⟩ := taken link awaits.1
        exact ⟨linkAfter, kept, handled_of_awaits awaits.2 called⟩
    | otherData _ other => exact absurd resent.link other
    | linkRequest kind | proof kind | announce kind =>
      rw [isData] at kind
      cases kind

/-- A packet that the node does not need recovers whatever happens. -/
private theorem recovers_of_unneeded (unneeded : ¬ handler.Needs arrival) :
    handler.Recovers arrival after pending where
  passes needs := absurd needs unneeded
  relayed outbound route := absurd (.inl ⟨outbound, route⟩) unneeded
  inLink link awaits := absurd (.inr (.inl ⟨link, awaits⟩)) unneeded
  outLink link awaits := absurd (.inr (.inr ⟨link, awaits⟩)) unneeded

/-- A received packet recovers from loss exactly when the node has forgotten it. -/
theorem recovers_iff_forgotten (resent : arrival.packet.IsResent)
    (received : handler.Receives crates arrival after pending) :
    handler.Recovers arrival after pending ↔ handler.Forgotten arrival := by
  have filter : (handler.filterDuplicatePackets arrival.around.now arrival.packet).1 = true ↔ _ :=
    filterDuplicatePackets_resent arrival.around.now resent
  constructor
  · intro recovers
    refine ⟨fun needs => filter.mp (recovers.passes needs), fun context link awaits => ?_⟩
    -- A proof leaves the in-links as they were, whether it passes or not.
    have unchanged : after.inLinks = handler.inLinks := by
      have isProof : arrival.packet.header.packetType = .proof := by
        rcases resent.kind with ⟨isProof, -⟩ | ⟨-, resource⟩
        · exact isProof
        · simp [context] at resource
      cases received with
      | pathRequest taken => exact absurd taken resent.transported
      | foreign _ _ same => rw [same]
      | duplicate _ _ dropped =>
        exact filterDuplicatePackets_inLinks dropped
      | passed _ _ filtered fresh dispatched =>
        cases dispatched with
        | proof _ handled =>
          rw [(handleProof_links handled).1, filterDuplicatePackets_inLinks fresh]
        | linkRequest kind | linkData kind | announce kind | otherData kind =>
          rw [isProof] at kind
          cases kind
    obtain ⟨linkAfter, kept, grown⟩ := recovers.inLink link awaits
    rw [unchanged, awaits.2.1] at kept
    rw [← Option.some.inj kept] at grown
    simp at grown
  · intro forgotten
    cases received with
    | pathRequest taken => exact absurd taken resent.transported
    | foreign _ rejected => simp [acceptsTransportPacket, resent.direct] at rejected
    | duplicate _ _ dropped =>
      refine recovers_of_unneeded fun needs => ?_
      have passes := filter.mpr (forgotten.cache needs)
      rw [dropped] at passes
      cases passes
    | passed _ _ filtered fresh dispatched =>
      exact recovers_of_passed resent fresh dispatched forgotten.proof

/-- One event at a node: a packet is received, one hop further, or the node changes otherwise. -/
def ReceiveStep (crates : Crates) (handler : TransportHandler) (event : NodeEvent)
    (after : TransportHandler) : Prop :=
  match event with
  | .arrives arrival pending => handler.Receives crates arrival.received after pending
  | .other => True

/-- The packet of an event, if it is one sent again, recovers from loss. -/
def RecoversEvent (handler : TransportHandler) (event : NodeEvent) (after : TransportHandler) :
    Prop :=
  match event with
  | .arrives arrival pending =>
    arrival.received.packet.IsResent → handler.Recovers arrival.received after pending
  | .other => True

/-- The packet of an event, if it is one sent again, is forgotten. -/
def ForgottenEvent (handler : TransportHandler) (event : NodeEvent) : Prop :=
  match event with
  | .arrives arrival _ => arrival.received.packet.IsResent → handler.Forgotten arrival.received
  | .other => True

end TransportHandler

open TransportHandler in
/--
In a run of a node every packet that is sent again unchanged recovers from loss exactly when each
one that is needed is no longer in the cache, or is a link-request proof for an in-link not yet
active, and no proof of a resource is awaited by an in-link.
-/
theorem retransmissions_recover_iff_forgotten (crates : Crates) {start final : TransportHandler}
    {events : List NodeEvent} :
    Run (fun handler event after => handler.ReceiveStep crates event after ∧
        handler.RecoversEvent event after) start events final ↔
      Run (fun handler event after => handler.ReceiveStep crates event after ∧
        handler.ForgottenEvent event) start events final := by
  refine Run.congr fun handler event after => and_congr_right fun step => ?_
  cases event with
  | arrives arrival pending => exact forall_congr' fun resent => recovers_iff_forgotten resent step
  | other => exact Iff.rfl

/-- A relay for concrete runs that forwarded a link request and awaits its proof. -/
private def forwarding : TransportHandler :=
  { TransportHandler.new ⟨.filled 0, false, false, true, false⟩ with
    linkTable := AList.insert (.filled 7)
      { LinkEntry.sample with validated := false, rebalanced := false } ∅ }

/-- The link-request proof for it, as the destination sends it each time. -/
private def lrproofArrival : Arrival where
  packet := {
    header := Link.header .proof
    destination := .filled 7
    transport := none
    context := .linkRequestProof
    data := [] }
  iface := .filled 2
  radio := ⟨none, none⟩
  around := ⟨5, .zero, false⟩
  secret := ⟨.filled 0, fun _ _ => []⟩

/-- The relay after the first copy of the proof. -/
private def forwardedOnce : TransportHandler :=
  ((forwarding.filterDuplicatePackets 5 lrproofArrival.received.packet).2.relayProof .sample
    lrproofArrival.around lrproofArrival.received.packet (.filled 2)).1

open TransportHandler in
/-- The first copy of a link-request proof is forwarded, and the next is dropped as a duplicate. -/
theorem resent_lrproof_dropped :
    (∃ pending, forwarding.Receives .sample lrproofArrival.received forwardedOnce pending ∧
      pending.length = 1) ∧
    (∃ after, forwardedOnce.Receives .sample lrproofArrival.received after [] ∧
      ¬ forwardedOnce.Recovers lrproofArrival.received after []) ∧
    lrproofArrival.received.packet.IsResent ∧
    forwardedOnce.Routes lrproofArrival.received (.filled 1) := by
  -- The proof was cached when it was first forwarded, and only proofs for in-links are excepted.
  have transported : (AddressHash.filled 7) ≠ fixedDestPathRequests := by decide +kernel
  have routes : forwardedOnce.Routes lrproofArrival.received (.filled 1) := ⟨_, rfl, by decide⟩
  have cache : forwardedOnce.packetCache =
      (forwarding.packetCache.update 5 lrproofArrival.received.packet).2 := rfl
  have known : forwardedOnce.packetCache.Knows lrproofArrival.received.packet := by
    rw [cache]
    exact PacketCache.update_knows _ _ _
  have resent : lrproofArrival.received.packet.IsResent :=
    ⟨.inl ⟨rfl, .inl rfl⟩, rfl, rfl, transported⟩
  have dropped : (forwardedOnce.filterDuplicatePackets 5 lrproofArrival.received.packet).1 =
      false := by
    rw [← Bool.not_eq_true, filterDuplicatePackets_resent 5 resent, not_or, not_not]
    refine ⟨known, fun excepted => ?_⟩
    obtain ⟨link, found, -⟩ := excepted.2
    have empty : forwardedOnce.inLinks = ∅ := rfl
    rw [empty] at found
    cases found
  refine ⟨⟨_, .passed transported rfl _ rfl (.proof rfl rfl), by decide⟩,
    ⟨_, .duplicate transported rfl (Prod.ext dropped rfl) rfl, fun recovers => ?_⟩, resent, routes⟩
  exact absurd (recovers.relayed _ routes) List.not_mem_nil

end Reticulum
