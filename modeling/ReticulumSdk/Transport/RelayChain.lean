import ReticulumSdk.Base.Chain
import ReticulumSdk.Transport.LinkTableLaws
import ReticulumSdk.Transport.Requests

/-! Chains of relays: a link established through them carries the traffic of both its ends. -/

namespace Reticulum

open Chain

/-- One relay of a chain: its transport and its interfaces toward the two ends of the link. -/
structure Relay where
  upstream : AddressHash
  downstream : AddressHash
  distinct : upstream ≠ downstream
  handler : TransportHandler

/-- The end of a chain a packet is sent from: the initiator of the link, or its destination. -/
inductive Sender where
  | initiator
  | destination
  deriving DecidableEq

namespace Relay

/-- The interface a packet of a sender arrives on, and the one it is to leave by. -/
def ifaces (relay : Relay) : Sender → AddressHash × AddressHash
  | .initiator => (relay.upstream, relay.downstream)
  | .destination => (relay.downstream, relay.upstream)

/-- A relay receives a link request from the initiator's side and passes it on down the chain. -/
def passRequest (crates : Crates) (secret : LinkSecret) (clock : Relay → Instant) (relay : Relay)
    (request : Packet) : Option (Relay × Packet) :=
  match relay.handler.handleLinkRequest crates secret (clock relay) request.received
      relay.upstream with
  | (handler, [⟨.direct iface, forwarded⟩]) =>
    if iface = relay.downstream then some ({ relay with handler := handler }, forwarded) else none
  | _ => none

/-- What the link table of a relay makes of a packet of a sender: `handle_packet` or `handle_proof`. -/
def tableForward (relay : Relay) (now : Instant) (sender : Sender) (packet : Packet) :
    Option (Packet × AddressHash) × LinkTable :=
  match packet.header.packetType with
  | .data => relay.handler.linkTable.handlePacket now packet (relay.ifaces sender).1
  | .proof =>
    let (outcome, table) := relay.handler.linkTable.handleProof now packet (relay.ifaces sender).1
    (outcome.map (·.propagation), table)
  | _ => (none, relay.handler.linkTable)

/-- A relay receives a link packet from one side and forwards it on the interface of the other. -/
def pass (sender : Sender) (clock : Relay → Instant) (relay : Relay) (packet : Packet) :
    Option (Relay × Packet) :=
  match relay.tableForward (clock relay) sender packet.received with
  | (some (forwarded, iface), table) =>
    if iface = (relay.ifaces sender).2 then
      some ({ relay with handler := { relay.handler with linkTable := table } }, forwarded)
    else none
  | (none, _) => none

end Relay

/-- Carry a packet of either end through the chain. -/
def cross (sender : Sender) (clock : Relay → Instant) (chain : List Relay) (packet : Packet) :
    Option (List Relay × Packet) :=
  match sender with
  | .initiator => carry (Relay.pass sender clock) chain packet
  | .destination => carryBack (Relay.pass sender clock) chain packet

/-- A packet one end sends, with the clock readings of the relays on its way. -/
structure Dispatch where
  sender : Sender
  packet : Packet
  clock : Relay → Instant

/-- Carry packet after packet through the chain, and collect what arrives. -/
def crossAll : List Relay → List Dispatch → Option (List Relay × List Packet)
  | chain, [] => some (chain, [])
  | chain, dispatch :: rest => do
    let (chain, arrived) ← cross dispatch.sender dispatch.clock chain dispatch.packet
    let (chain, others) ← crossAll chain rest
    return (chain, arrived :: others)

/-- A link data packet or a message proof that an end of the link sends. -/
structure LinkTraffic (linkId : AddressHash) (packet : Packet) : Prop where
  destination : packet.destination = linkId
  hops : packet.header.hops = 0
  kind : packet.header.packetType = .data ∨
    (packet.header.packetType = .proof ∧ packet.context ≠ .linkRequestProof)

/-- The proof with which the destination answers a link request. -/
structure LinkProof (linkId : AddressHash) (packet : Packet) : Prop where
  destination : packet.destination = linkId
  hops : packet.header.hops = 0
  packetType : packet.header.packetType = .proof
  context : packet.context = .linkRequestProof

namespace Relay

/--
A relay on the path of a link request: the destination is elsewhere, as many hops away as the
path says, and an entry of the link, if there is one, is of an earlier copy of the request.
-/
structure OnPath (request : Packet) (before behind : Nat) (relay : Relay) : Prop where
  remote : relay.handler.singleInDestinations.lookup request.destination = none
  path : ∃ entry, relay.handler.pathTable.map.lookup request.destination = some entry ∧
    entry.iface = relay.downstream ∧ entry.hops = UInt8.ofNat (behind + 1)
  known : ∀ entry, relay.handler.linkTable.lookup request.linkId = some entry →
    entry.nextHopIface = relay.downstream ∧ entry.receivedFrom = relay.upstream ∧
      entry.takenHops = UInt8.ofNat (before + 1)

/-- A relay that passed the request of a link on. -/
structure Asked (linkId : AddressHash) (before : Nat) (relay : Relay) (entry : LinkEntry) :
    Prop where
  found : relay.handler.linkTable.lookup linkId = some entry
  nextHopIface : entry.nextHopIface = relay.downstream
  receivedFrom : entry.receivedFrom = relay.upstream
  takenHops : entry.takenHops = UInt8.ofNat (before + 1)

/-- A relay that passed the proof of a link back. -/
structure Carries (linkId : AddressHash) (before behind : Nat) (relay : Relay)
    (entry : LinkEntry) : Prop extends Asked linkId before relay entry where
  validated : entry.validated = true
  remainingHops : entry.remainingHops = UInt8.ofNat (behind + 1)

end Relay

/-- A packet that carries a message, some hops from where it was sent. -/
structure Underway (sent : Packet) (hops : Nat) (packet : Packet) : Prop where
  same : SameMessage sent packet
  hops : packet.header.hops = UInt8.ofNat hops

/-- A link request under way, which relays may clamp and stamp. -/
structure RequestUnderway (request : Packet) (hops : Nat) (packet : Packet) : Prop where
  destination : packet.destination = request.destination
  linkId : packet.linkId = request.linkId
  hops : packet.header.hops = UInt8.ofNat hops

/-- A reception adds one hop to a count below the largest. -/
theorem received_hops {packet : Packet} {hops : Nat} (small : hops < 255)
    (counted : packet.header.hops = UInt8.ofNat hops) :
    packet.received.header.hops = UInt8.ofNat (hops + 1) := by
  -- Below 255 the count grows by one and does not wrap.
  have below : UInt8.ofNat hops ≠ 255 := by
    intro full
    have value := congrArg UInt8.toNat full
    rw [UInt8.toNat_ofNat'] at value
    simp at value
    omega
  have one : (1 : UInt8).toNat = 1 := rfl
  simp only [Packet.received, counted, below, if_false]
  apply UInt8.toNat_inj.mp
  simp only [UInt8.toNat_add, UInt8.toNat_ofNat', one]
  omega

/-- A reception keeps the message. -/
theorem received_same (packet : Packet) : SameMessage packet packet.received :=
  ⟨rfl, rfl, rfl, rfl, rfl⟩

/-- The address of a link depends on the message of its request up to the signalled size. -/
theorem linkId_congr (packet other : Packet) (destination : other.destination = packet.destination)
    (context : other.context = packet.context)
    (keys : other.data.take (PUBLIC_KEY_LENGTH * 2) = packet.data.take (PUBLIC_KEY_LENGTH * 2))
    (packetType : other.header.packetType = packet.header.packetType)
    (destinationType : other.header.destinationType = packet.header.destinationType) :
    other.linkId = packet.linkId := by
  simp only [Packet.linkId, Packet.linkHashed, Header.toMeta_and, destination, context, keys,
    packetType, destinationType]

namespace TransportHandler

/-- Clamping changes nothing of a request but the size behind its keys. -/
theorem requestFor_keeps (handler : TransportHandler) (packet : Packet) (inbound : AddressHash)
    (outbound : Option AddressHash) :
    ∃ data, handler.requestFor packet inbound outbound = { packet with data := data } ∧
      data.take (PUBLIC_KEY_LENGTH * 2) = packet.data.take (PUBLIC_KEY_LENGTH * 2) := by
  -- The keys in front are never written to; they are there when the size behind them is.
  unfold requestFor
  split
  · unfold clampLinkRequestMtu
    split
    · exact ⟨packet.data, rfl, rfl⟩
    · rename_i sized
      have long : (packet.data.take (PUBLIC_KEY_LENGTH * 2)).length = PUBLIC_KEY_LENGTH * 2 := by
        rw [List.length_take, not_not.mp sized]
        rfl
      dsimp only
      split
      · exact ⟨_, rfl, by rw [List.take_take, Nat.min_self]⟩
      · split
        · exact ⟨_, rfl, List.take_left' long⟩
        · exact ⟨packet.data, rfl, rfl⟩
  · exact ⟨packet.data, rfl, rfl⟩

/-- Clamping a request keeps its address and its hops. -/
theorem requestFor_underway {request packet : Packet} {hops : Nat} (handler : TransportHandler)
    (inbound : AddressHash) (outbound : Option AddressHash)
    (underway : RequestUnderway request hops packet) :
    RequestUnderway request hops (handler.requestFor packet inbound outbound) := by
  obtain ⟨data, clamped, keys⟩ := handler.requestFor_keeps packet inbound outbound
  rw [clamped]
  exact ⟨underway.destination,
    (linkId_congr packet { packet with data := data } rfl rfl keys rfl rfl).trans underway.linkId,
    underway.hops⟩

/-- Stamping a request for the next hop keeps its address and its hops. -/
theorem restamp_underway {request packet : Packet} {hops : Nat} (remainingHops : UInt8)
    (transport : AddressHash) (underway : RequestUnderway request hops packet) :
    RequestUnderway request hops (restamp packet remainingHops transport) := by
  -- A stamp changes the header type and the transport, which the link's identifier does not depend on.
  have keeps : ∃ header carrier, restamp packet remainingHops transport =
      { packet with header := header, transport := carrier } ∧
        header.packetType = packet.header.packetType ∧
        header.destinationType = packet.header.destinationType ∧
        header.hops = packet.header.hops := by
    unfold restamp
    split <;> exact ⟨_, _, rfl, rfl, rfl, rfl⟩
  obtain ⟨header, carrier, stamped, packetType, destinationType, hops⟩ := keeps
  rw [stamped]
  exact ⟨underway.destination, (linkId_congr packet
    { packet with header := header, transport := carrier } rfl rfl rfl packetType
      destinationType).trans underway.linkId, hops.trans underway.hops⟩

/-- A request that is within its hops and no loop is sent to the next hop. -/
theorem handleLinkRequestAsIntermediate_eq {handler : TransportHandler} {now : Instant}
    {receivedFrom nextHopIface : AddressHash} (nextHopTransport : AddressHash)
    {remainingHops : UInt8} {packet : Packet} (allowed : ¬ packet.header.hops > PATHFINDER_M)
    (forward : (handler.linkTable.add now packet packet.destination receivedFrom nextHopIface
      remainingHops).1 ≠ .loop) :
    ∃ handler' forwarded, handler.handleLinkRequestAsIntermediate now receivedFrom nextHopIface
        nextHopTransport remainingHops packet = (handler', [⟨.direct nextHopIface, forwarded⟩]) ∧
      handler'.linkTable = (handler.linkTable.add now packet packet.destination receivedFrom
        nextHopIface remainingHops).2 ∧
      ∀ request hops, RequestUnderway request hops packet →
        RequestUnderway request hops forwarded := by
  -- Within the hop limit and without a loop the request goes on as it came, clamped and stamped.
  unfold handleLinkRequestAsIntermediate
  rw [if_neg allowed]
  split
  · rename_i table added
    exact absurd (congrArg Prod.fst added) forward
  · rename_i table added
    refine ⟨_, _, rfl, (congrArg Prod.snd added).symm, fun request hops underway => ?_⟩
    exact restamp_underway _ _ (requestFor_underway _ _ _ underway)

end TransportHandler

namespace Relay

variable {relay : Relay} {before behind : Nat} {packet : Packet} {linkId : AddressHash}
  {entry : LinkEntry} {clock : Relay → Instant}

/-- A relay on the path of a request passes it on, and remembers where it came from. -/
theorem passRequest_onPath {request : Packet} (crates : Crates) (secret : LinkSecret)
    (clock : Relay → Instant) (near : before < 128) (ready : relay.OnPath request before behind)
    (underway : RequestUnderway request before packet) :
    ∃ relay' packet', relay.passRequest crates secret clock packet = some (relay', packet') ∧
      (∃ entry, relay'.Asked request.linkId before entry) ∧
      RequestUnderway request (before + 1) packet' := by
  -- The relay knows a path and has no other entry for this link, so it adds one and forwards.
  obtain ⟨path, found, outbound, -⟩ := ready.path
  have counted := received_hops (by omega) underway.hops
  have addressed : packet.received.linkId = request.linkId :=
    (linkId_congr packet packet.received rfl rfl rfl rfl rfl).trans underway.linkId
  have arrived : RequestUnderway request (before + 1) packet.received :=
    ⟨underway.destination, addressed, counted⟩
  have allowed : ¬ packet.received.header.hops > PATHFINDER_M := by
    rw [counted, gt_iff_lt, UInt8.lt_iff_toNat_lt, UInt8.toNat_ofNat']
    simp only [PATHFINDER_M, UInt8.reduceToNat]
    omega
  have known : ∀ entry, relay.handler.linkTable.lookup packet.received.linkId = some entry →
      entry.nextHopIface = path.iface ∧ entry.receivedFrom = relay.upstream ∧
        entry.takenHops = packet.received.header.hops := by
    rw [addressed, counted, outbound]
    exact ready.known
  have added := LinkTable.add_entry (clock relay) packet.received.destination
    (if path.hops = 0 then 0 else path.hops - 1) known
  obtain ⟨forward, entry, held, nextHop, origin, taken⟩ := added
  obtain ⟨handler, forwarded, handled, table, carried⟩ :=
    TransportHandler.handleLinkRequestAsIntermediate_eq path.receivedFrom allowed forward
  have routed : relay.handler.handleLinkRequest crates secret (clock relay) packet.received
      relay.upstream = (handler, [⟨.direct path.iface, forwarded⟩]) := by
    have remote : relay.handler.singleInDestinations.lookup packet.received.destination = none := by
      rw [arrived.destination]
      exact ready.remote
    have route : relay.handler.pathTable.nextHopRoute packet.received.destination =
        some (path.receivedFrom, path.iface, path.hops) := by
      rw [arrived.destination, PathTable.nextHopRoute, found]
      rfl
    simp only [TransportHandler.handleLinkRequest, remote, route, handled]
  refine ⟨{ relay with handler := handler }, forwarded, ?_, ⟨entry, ?_⟩, carried _ _ arrived⟩
  · simp only [passRequest, routed, outbound, if_true]
  · exact ⟨by rw [table, ← addressed, held], nextHop.trans outbound, origin, taken.trans counted⟩

/-- The relays a packet of a sender has passed at a place of the chain. -/
def passed : Sender → Nat → Nat → Nat
  | .initiator, before, _ => before
  | .destination, _, behind => behind

/-- The two sides of a relay's entry are different interfaces. -/
theorem Asked.not_shared (asked : relay.Asked linkId before entry) : ¬ entry.Shared := by
  intro shared
  apply relay.distinct
  rw [← asked.receivedFrom, ← asked.nextHopIface]
  exact shared.symm

/-- A packet of either end, at the count of its side, is routed to the other. -/
theorem Carries.packetRoute (carries : relay.Carries linkId before behind entry) (sender : Sender) :
    entry.packetRoute (UInt8.ofNat (passed sender before behind + 1)) (relay.ifaces sender).1 =
      some (relay.ifaces sender).2 := by
  -- The two interfaces differ, so the one the packet came in on names the direction and the hops to
  -- expect.
  have apart := carries.toAsked.not_shared
  have distinct := relay.distinct
  cases sender with
  | initiator =>
    simp [LinkEntry.packetRoute, apart, ifaces, passed, carries.nextHopIface, carries.receivedFrom,
      carries.takenHops, distinct]
  | destination =>
    simp [LinkEntry.packetRoute, apart, ifaces, passed, carries.nextHopIface, carries.receivedFrom,
      carries.remainingHops]

/-- So is a proof. -/
theorem Carries.proofRoute (carries : relay.Carries linkId before behind entry) (sender : Sender) :
    entry.proofRoute false (UInt8.ofNat (passed sender before behind + 1)) (relay.ifaces sender).1 =
      some (relay.ifaces sender).2 := by
  -- The same test as for data: the interface names the direction and the hops to expect.
  have apart := carries.toAsked.not_shared
  have distinct := relay.distinct
  cases sender with
  | initiator =>
    simp [LinkEntry.proofRoute, apart, ifaces, passed, carries.nextHopIface, carries.receivedFrom,
      carries.takenHops, distinct]
  | destination =>
    simp [LinkEntry.proofRoute, apart, ifaces, passed, carries.nextHopIface, carries.receivedFrom,
      carries.remainingHops]

/-- A link-request proof from the destination is routed to the initiator, whatever its count. -/
theorem Asked.lrproofRoute (asked : relay.Asked linkId before entry) (hops : UInt8) :
    entry.proofRoute true hops relay.downstream = some relay.upstream := by
  simp [LinkEntry.proofRoute, asked.not_shared, asked.nextHopIface, asked.receivedFrom]

/-- A relay whose table forwards a packet to the other side passes it on. -/
theorem pass_eq {sender : Sender} {propagated : Packet} {table : LinkTable}
    (forwarded : relay.tableForward (clock relay) sender packet.received =
      (some (propagate propagated (relay.ifaces sender).2), table)) :
    relay.pass sender clock packet =
      some ({ relay with handler := { relay.handler with linkTable := table } },
        (propagate propagated (relay.ifaces sender).2).1) := by
  simp only [pass, forwarded]
  simp [propagate]

/-- A packet that was propagated after a reception is one hop farther under way. -/
theorem propagate_underway {sent : Packet} {hops : Nat} (small : hops < 255)
    (underway : Underway sent hops packet) (iface : AddressHash) :
    Underway sent (hops + 1) (propagate packet.received iface).1 where
  same := (underway.same.trans (received_same packet)).trans (propagate_same _ _)
  hops := received_hops small underway.hops

/-- A relay that passed a request on passes the link's proof back, and then carries the link. -/
theorem pass_proof {proof : Packet} (proves : LinkProof linkId proof) (near : behind < 255)
    (asked : relay.Asked linkId before entry) (underway : Underway proof behind packet) :
    ∃ relay' packet', relay.pass .destination clock packet = some (relay', packet') ∧
      (∃ entry, relay'.Carries linkId before behind entry) ∧ Underway proof (behind + 1) packet' := by
  -- The link proof validates the entry and sets the hops remaining to the count it arrives with.
  have same := underway.same.trans (received_same packet)
  have counted := received_hops near underway.hops
  have addressed : packet.received.destination = linkId := same.destination.trans proves.destination
  have kind : packet.received.header.packetType = .proof := same.packetType.trans proves.packetType
  have lrproof : packet.received.isLrproof = true := by
    simp [Packet.isLrproof, same.context, proves.context]
  have found : relay.handler.linkTable.lookup packet.received.destination = some entry := by
    rw [addressed, asked.found]
  have route : entry.proofRoute packet.received.isLrproof packet.received.header.hops
      relay.downstream = some relay.upstream := by
    rw [lrproof, asked.lrproofRoute]
  have handled := LinkTable.handleProof_eq (clock relay) found route
  have forwarded : relay.tableForward (clock relay) .destination packet.received =
      (some (propagate packet.received relay.upstream), relay.handler.linkTable.insert linkId
        ((entry.proved packet.received.header.hops).forwarded (clock relay))) := by
    simp only [tableForward, kind, ifaces, handled, lrproof, addressed, if_true, Option.map_some]
  refine ⟨_, _, pass_eq forwarded, ⟨(entry.proved packet.received.header.hops).forwarded
    (clock relay), ?_⟩, propagate_underway near underway _⟩
  exact {
    found := AList.lookup_insert _
    nextHopIface := asked.nextHopIface
    receivedFrom := asked.receivedFrom
    takenHops := asked.takenHops
    validated := rfl
    remainingHops := counted }

/-- A relay that carries a link passes its traffic on, in either direction, and carries it still. -/
theorem pass_traffic (sender : Sender) {sent : Packet} (traffic : LinkTraffic linkId sent)
    (near : passed sender before behind < 255)
    (carries : relay.Carries linkId before behind entry)
    (underway : Underway sent (passed sender before behind) packet) :
    ∃ relay' packet', relay.pass sender clock packet = some (relay', packet') ∧
      (∃ entry, relay'.Carries linkId before behind entry) ∧
      Underway sent (passed sender before behind + 1) packet' := by
  -- Data and ordinary proofs take the route of a validated entry, in either direction.
  have same := underway.same.trans (received_same packet)
  have counted := received_hops near underway.hops
  have addressed : packet.received.destination = linkId := same.destination.trans traffic.destination
  have found : relay.handler.linkTable.lookup packet.received.destination = some entry := by
    rw [addressed, carries.found]
  have forwarded : relay.tableForward (clock relay) sender packet.received =
      (some (propagate packet.received (relay.ifaces sender).2), relay.handler.linkTable.insert linkId
        (entry.forwarded (clock relay))) := by
    rcases traffic.kind with data | ⟨proof, ordinary⟩
    · have kind : packet.received.header.packetType = .data := same.packetType.trans data
      have route := carries.packetRoute sender
      rw [← counted] at route
      have handled := LinkTable.handlePacket_eq (clock relay) found carries.validated route
      simp only [tableForward, kind, handled, addressed]
    · have kind : packet.received.header.packetType = .proof := same.packetType.trans proof
      have lrproof : packet.received.isLrproof = false := by
        simp [Packet.isLrproof, same.context, ordinary]
      have route := carries.proofRoute sender
      rw [← counted, ← lrproof] at route
      have handled := LinkTable.handleProof_eq (clock relay) found route
      simp only [tableForward, kind, handled, addressed, lrproof, Bool.false_eq_true, if_false,
        Option.map_some]
  refine ⟨_, _, pass_eq forwarded, ⟨entry.forwarded (clock relay), ?_⟩,
    propagate_underway near underway _⟩
  exact {
    found := AList.lookup_insert _
    nextHopIface := carries.nextHopIface
    receivedFrom := carries.receivedFrom
    takenHops := carries.takenHops
    validated := carries.validated
    remainingHops := carries.remainingHops }

end Relay

/-- A chain of relays that carry a link. -/
def Established (linkId : AddressHash) (chain : List Relay) : Prop :=
  Placed (fun before behind relay => ∃ entry, relay.Carries linkId before behind entry) 0 chain

/-- A packet of either end crosses the relays that carry its link. -/
theorem cross_established {linkId : AddressHash} {chain : List Relay} {sent : Packet}
    (sender : Sender) (clock : Relay → Instant) (short : chain.length < 127)
    (established : Established linkId chain) (traffic : LinkTraffic linkId sent) :
    ∃ chain' arrived, cross sender clock chain sent = some (chain', arrived) ∧
      chain'.length = chain.length ∧ Established linkId chain' ∧ SameMessage sent arrived := by
  -- Each relay passes the packet on and keeps carrying the link, so the chain stays established.
  have bounded := established.bounded 126 (by omega)
  have start : Underway sent 0 sent := ⟨.refl sent, by simpa using traffic.hops⟩
  cases sender with
  | initiator =>
    obtain ⟨chain', arrived, carried, length, kept, underway⟩ := carry_placed
      (fun before behind relay packet ⟨near, entry, carries⟩ underway =>
        Relay.pass_traffic .initiator traffic (by simp only [Relay.passed]; omega)
          carries underway) bounded start
    exact ⟨chain', arrived, carried, length, kept, underway.same⟩
  | destination =>
    obtain ⟨chain', arrived, carried, length, kept, underway⟩ := carryBack_placed
      (fun before behind relay packet ⟨near, entry, carries⟩ underway =>
        Relay.pass_traffic .destination traffic (by simp only [Relay.passed]; omega)
          carries underway) bounded start
    exact ⟨chain', arrived, carried, length, kept, underway.same⟩

/-- So does packet after packet, in any order and from both ends. -/
theorem crossAll_established {linkId : AddressHash} {chain : List Relay} {traffic : List Dispatch}
    (short : chain.length < 127) (established : Established linkId chain)
    (each : ∀ dispatch ∈ traffic, LinkTraffic linkId dispatch.packet) :
    ∃ final arrivals, crossAll chain traffic = some (final, arrivals) ∧
      List.Forall₂ (fun dispatch arrived => SameMessage dispatch.packet arrived) traffic arrivals := by
  -- Each packet leaves the chain as able to carry the next.
  induction traffic generalizing chain with
  | nil => exact ⟨chain, [], rfl, .nil⟩
  | cons dispatch rest ih =>
    obtain ⟨chain', arrived, crossed, length, kept, same⟩ := cross_established dispatch.sender
      dispatch.clock short established (each _ List.mem_cons_self)
    obtain ⟨final, arrivals, others, all⟩ := ih (length ▸ short) kept
      fun later member => each later (List.mem_cons_of_mem _ member)
    exact ⟨final, arrived :: arrivals, by simp [crossAll, crossed, others], .cons same all⟩

/-- A link request is passed down a chain of relays on its path, each of which remembers it. -/
theorem request_carried (crates : Crates) (secret : LinkSecret) {chain : List Relay}
    {request : Packet} (short : chain.length < 127)
    (onPath : Placed (Relay.OnPath request) 0 chain) (sent : request.header.hops = 0)
    (clock : Relay → Instant) :
    ∃ asked arrived, carry (Relay.passRequest crates secret clock) chain request =
        some (asked, arrived) ∧ asked.length = chain.length ∧
      Placed (fun before _ relay => ∃ entry, relay.Asked request.linkId before entry) 0 asked := by
  -- The hop count stays below the limit, since the chain is shorter than 127.
  have bounded := onPath.bounded 126 (by omega)
  have start : RequestUnderway request 0 request := ⟨rfl, rfl, by simpa using sent⟩
  obtain ⟨asked, arrived, carried, length, kept, -⟩ := carry_placed
    (fun before behind relay packet ⟨near, ready⟩ underway =>
      Relay.passRequest_onPath crates secret clock (by omega) ready underway) bounded start
  exact ⟨asked, arrived, carried, length, kept⟩

/-- The proof of the link comes back up the chain and establishes it in every relay. -/
theorem proof_carried {linkId : AddressHash} {asked : List Relay} {proof : Packet}
    (short : asked.length < 127)
    (placed : Placed (fun before _ relay => ∃ entry, relay.Asked linkId before entry) 0 asked)
    (proves : LinkProof linkId proof) (clock : Relay → Instant) :
    ∃ chain arrived, cross .destination clock asked proof = some (chain, arrived) ∧
      chain.length = asked.length ∧ Established linkId chain := by
  -- The proof travels back along the relays that were asked and validates each in turn.
  have bounded := placed.bounded 126 (by omega)
  have start : Underway proof 0 proof := ⟨.refl proof, by simpa using proves.hops⟩
  obtain ⟨chain, arrived, carried, length, kept, -⟩ := carryBack_placed
    (fun before behind relay packet ⟨near, entry, asked⟩ underway =>
      Relay.pass_proof proves (by omega) asked underway) bounded start
  exact ⟨chain, arrived, carried, length, kept⟩

/--
Through any chain of fewer than 127 relays on the path of a link request, the request is passed
down and the proof of its link back, and every later packet and message proof of either end
arrives at the other with its hash, destination, context and data.
-/
theorem link_traffic_crosses_relays (crates : Crates) (secret : LinkSecret) {chain : List Relay}
    {request : Packet} (short : chain.length < 127)
    (onPath : Placed (Relay.OnPath request) 0 chain) (sent : request.header.hops = 0)
    (clock : Relay → Instant) :
    ∃ asked arrived,
      carry (Relay.passRequest crates secret clock) chain request = some (asked, arrived) ∧
      ∀ proof proofClock, LinkProof request.linkId proof →
        ∃ established returned, cross .destination proofClock asked proof =
            some (established, returned) ∧
          ∀ traffic : List Dispatch,
            (∀ dispatch ∈ traffic, LinkTraffic request.linkId dispatch.packet) →
            ∃ final arrivals, crossAll established traffic = some (final, arrivals) ∧
              List.Forall₂ (fun dispatch arrived => arrived.hash = dispatch.packet.hash ∧
                arrived.destination = dispatch.packet.destination ∧
                arrived.context = dispatch.packet.context ∧
                arrived.data = dispatch.packet.data) traffic arrivals := by
  -- The request asks every relay, the proof establishes them, and an established chain carries all
  -- traffic.
  obtain ⟨asked, arrived, carried, length, placed⟩ :=
    request_carried crates secret short onPath sent clock
  refine ⟨asked, arrived, carried, fun proof proofClock proves => ?_⟩
  obtain ⟨chain', returned, crossed, length', established⟩ :=
    proof_carried (by omega) placed proves proofClock
  refine ⟨chain', returned, crossed, fun traffic each => ?_⟩
  obtain ⟨final, arrivals, all, same⟩ := crossAll_established (by omega) established each
  exact ⟨final, arrivals, all, same.imp fun dispatch arrived same =>
    ⟨same.hash, same.destination, same.context, same.data⟩⟩

/-- A relay for concrete runs, a number of hops from the destination with address nine. -/
private def relayAt (hops : UInt8) : Relay where
  upstream := .filled 1
  downstream := .filled 2
  distinct := by decide
  handler := { TransportHandler.new ⟨.filled hops, false, true, true, false⟩ with
    pathTable := ⟨AList.insert (.filled 9) {
      timestamp := 0
      receivedFrom := .filled (hops - 1)
      hops := hops
      iface := .filled 2
      expires := 0
      pathExpiry := 0 } ∅⟩ }

/-- A link request for concrete runs, to the destination with address nine. -/
private def requestTo9 : Packet where
  header := { packetType := .linkRequest }
  destination := .filled 9
  transport := none
  context := .none
  data := List.replicate (PUBLIC_KEY_LENGTH * 2) 0

/-- Two relays pass a link request down, and then carry its link. -/
theorem link_traffic_crosses_relays_two :
    ∃ asked arrived, carry (Relay.passRequest .sample ⟨.filled 0, fun _ _ => []⟩ fun _ => 0)
        [relayAt 2, relayAt 1] requestTo9 = some (asked, arrived) ∧
      ∀ proof proofClock, LinkProof requestTo9.linkId proof →
        ∃ established returned, cross .destination proofClock asked proof =
            some (established, returned) ∧
          ∀ traffic : List Dispatch,
            (∀ dispatch ∈ traffic, LinkTraffic requestTo9.linkId dispatch.packet) →
            ∃ final arrivals, crossAll established traffic = some (final, arrivals) ∧
              List.Forall₂ (fun dispatch arrived => arrived.hash = dispatch.packet.hash ∧
                arrived.destination = dispatch.packet.destination ∧
                arrived.context = dispatch.packet.context ∧
                arrived.data = dispatch.packet.data) traffic arrivals := by
  -- Neither relay has an entry for the link yet.
  have onPath : Placed (Relay.OnPath requestTo9) 0 [relayAt 2, relayAt 1] := by
    refine ⟨⟨rfl, ⟨_, rfl, rfl, rfl⟩, ?_⟩, ⟨rfl, ⟨_, rfl, rfl, rfl⟩, ?_⟩, trivial⟩ <;>
    · intro entry found
      cases found
  exact link_traffic_crosses_relays .sample ⟨.filled 0, fun _ _ => []⟩ (by decide) onPath rfl
    fun _ => 0

end Reticulum
