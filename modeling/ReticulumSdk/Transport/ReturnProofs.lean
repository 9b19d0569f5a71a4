import ReticulumSdk.Transport.RelayChain
import ReticulumSdk.Transport.HandlerLaws

/-! The way back of packet proofs, which every relay of a single packet remembers. -/

namespace Reticulum

open Chain

/-- `SingleInputDestination::proof_packet`. -/
def SingleInputDestination.proofPacket (destination : SingleInputDestination) (packetHash : Hash) :
    Packet where
  header := { destinationType := .single, packetType := .proof }
  destination := .newFromHash packetHash
  transport := none
  context := .none
  data := packetHash.bytes ++ (destination.sign packetHash.bytes).bytes

/--
What `handle_data` does with a packet for a single destination elsewhere. Without a path to it, a
path request is sent instead.
-/
def TransportHandler.forwardSingleData (handler : TransportHandler) (now : Instant) (packet : Packet)
    (iface : AddressHash) : TransportHandler × List TxMessage :=
  match handler.resolveNextHop packet none with
  | some (routed, outbound) =>
    -- The entry is made for the packet as it is sent, not as it came.
    sendToNextHop { handler with
      reverseTable := handler.reverseTable.add now routed iface outbound } now routed outbound
  | none => (handler, [])

/-- One relay of a packet's way, with its interfaces toward the two ends, which may be the same. -/
structure Waypoint where
  upstream : AddressHash
  downstream : AddressHash
  handler : TransportHandler

namespace Waypoint

/-- A relay receives a single packet that is not its own, and passes it on toward its destination. -/
def passData (clock : Waypoint → Instant) (relay : Waypoint) (packet : Packet) :
    Option (Waypoint × Packet) :=
  if packet.header.packetType = .data ∧ packet.header.destinationType = .single ∧
      relay.handler.singleInDestinations.lookup packet.destination = none then
    match relay.handler.forwardSingleData (clock relay) packet.received relay.upstream with
    | (handler, [⟨.direct iface, forwarded⟩]) =>
      if iface = relay.downstream then some ({ relay with handler := handler }, forwarded) else none
    | _ => none
  else none

/-- A relay receives a proof from where the packet went, and passes it on to where that came from. -/
def passProof (relay : Waypoint) (proof : Packet) : Option (Waypoint × Packet) :=
  match relay.handler.reverseProof proof.received relay.downstream with
  | (handler, [⟨.direct iface, returned⟩]) =>
    if iface = relay.upstream then some ({ relay with handler := handler }, returned) else none
  | _ => none

/-- A relay that recorded, under a key, where a packet came from and where it went. -/
def Recorded (key : AddressHash) (relay : Waypoint) : Prop :=
  ∃ entry, relay.handler.reverseTable.lookup key = some entry ∧
    entry.receivedFrom = relay.upstream ∧ entry.outboundInterface = relay.downstream

/-- A relay that has consumed the entry of a key, and changed in nothing else. -/
structure Consumed (key : AddressHash) (relay after : Waypoint) : Prop where
  frame : after = { relay with handler := { relay.handler with
    reverseTable := relay.handler.reverseTable.erase key } }
  one : after.handler.reverseTable.size + 1 = relay.handler.reverseTable.size

/-- A relay after more has happened to it, which still lies on the way and remembers the key. -/
structure Remembers (key : AddressHash) (relay later : Waypoint) : Prop where
  upstream : later.upstream = relay.upstream
  downstream : later.downstream = relay.downstream
  entry : later.handler.reverseTable.lookup key = relay.handler.reverseTable.lookup key

/--
What `handle_proof` does with a proof for a key, whichever links its address may also name: the entry
is consumed, and the proof is forwarded upstream if it came from downstream, else not.
-/
def ReturnsProof (key : AddressHash) (relay : Waypoint) : Prop :=
  ∀ (crates : Crates) (around : Surroundings) (radio : Radio) (proof : Packet) (iface : AddressHash),
    proof.destination = key →
    ((relay.handler.reverseProof proof iface).2 =
      if iface = relay.downstream then
        [⟨.direct relay.upstream, { proof with
          header := { proof.header with ifacFlag := .opened }
          ifac := none }⟩]
      else []) ∧
    ∀ after pending, relay.handler.handleProof crates around proof radio iface = .ok (after, pending) →
      after.reverseTable = relay.handler.reverseTable.erase key ∧
      (relay.handler.reverseProof proof iface).2 ⊆ pending ∧
      (relay.handler.outLinksByLinkId.lookup key = none → relay.handler.linkTable.lookup key = none →
        pending = (relay.handler.reverseProof proof iface).2)

end Waypoint

namespace TransportHandler

variable {crates : Crates} {around : Surroundings} {handler after : TransportHandler}
  {packet : Packet} {iface : AddressHash} {pending : List TxMessage} {entry : ReverseEntry}

/-- A packet with a path is recorded under its own hash and sent along it. -/
theorem forwardSingleData_sent {now : Instant} {message : TxMessage}
    (sent : handler.forwardSingleData now packet iface = (after, [message])) :
    ∃ outbound, message.txType = .direct outbound ∧ SameMessage packet message.packet ∧
      after.reverseTable.lookup (.newFromHash packet.hash) = some ⟨now, iface, outbound⟩ := by
  unfold forwardSingleData at sent
  split at sent
  · rename_i routed outbound resolved
    obtain ⟨rfl, one⟩ := Prod.mk.inj sent
    obtain rfl := (List.cons.inj one).1
    -- The path's rewrite leaves the message, and with it the hash, as it was.
    have same : SameMessage packet routed := by
      unfold resolveNextHop at resolved
      cases found : handler.pathTable.map.lookup packet.destination with
      | none => simp [PathTable.handleInboundPacket, found] at resolved
      | some path =>
        simp only [PathTable.handleInboundPacket, Option.getD_none, found, Option.some.injEq,
          Prod.mk.injEq] at resolved
        obtain ⟨rfl, -⟩ := resolved
        exact ⟨rfl, rfl, rfl, rfl, rfl⟩
    refine ⟨outbound, rfl, same, ?_⟩
    rw [← same.hash]
    exact AList.lookup_insert _
  · cases congrArg (fun result => result.2.length) sent

/-- A proof with an entry consumes it, and is forwarded if it comes from where the packet went. -/
theorem reverseProof_found (iface : AddressHash)
    (found : handler.reverseTable.lookup packet.destination = some entry) :
    handler.reverseProof packet iface =
      ({ handler with reverseTable := handler.reverseTable.erase packet.destination },
        if iface = entry.outboundInterface then
          [⟨.direct entry.receivedFrom, (ReverseTable.sendBackwards packet entry).1⟩]
        else []) := by
  -- The entry is erased first, whether or not the proof came over the interface expected.
  simp only [reverseProof, ReverseTable.handleProof, found]
  by_cases expected : iface = entry.outboundInterface
  · simp only [expected, if_true, ReverseTable.sendBackwards]
  · simp only [expected, if_false]

/-- What is sent back depends on the reverse table alone. -/
theorem reverseProof_congr {other : TransportHandler} (packet : Packet)
    (iface : AddressHash) (same : other.reverseTable = handler.reverseTable) :
    (other.reverseProof packet iface).2 = (handler.reverseProof packet iface).2 ∧
      (other.reverseProof packet iface).1.reverseTable =
        (handler.reverseProof packet iface).1.reverseTable := by
  unfold reverseProof
  rw [same]
  split <;> exact ⟨rfl, rfl⟩

/-- `handle_proof` ends with the reverse table it began with, whatever links the proof is for. -/
theorem handleProof_reverse {radio : Radio}
    (handled : handler.handleProof crates around packet radio iface = .ok (after, pending)) :
    after.reverseTable = (handler.reverseProof packet iface).1.reverseTable ∧
      (handler.reverseProof packet iface).2 ⊆ pending ∧
      (handler.outLinksByLinkId.lookup packet.destination = none →
        handler.linkTable.lookup packet.destination = none →
        pending = (handler.reverseProof packet iface).2) := by
  obtain ⟨first, activation, called, ended, sent⟩ := handleProof_ok handled
  have given := proofToOutLink_frame called
  have receipt := takeReceipt_frame first packet radio
  have relayed := relayProof_frame crates around (first.takeReceipt packet radio) packet iface
  -- The parts before the last write to other tables.
  have kept : ((first.takeReceipt packet radio).relayProof crates around packet iface).1.reverseTable =
      handler.reverseTable := by
    rw [relayed, receipt, given]
  obtain ⟨returned, table⟩ := reverseProof_congr packet iface kept
  refine ⟨by rw [ended, table], ?_, fun ownless linkless => ?_⟩
  · rw [sent, returned]
    exact List.subset_append_right _ _
  · obtain ⟨rfl, rfl⟩ : first = handler ∧ activation = [] := by
      simp only [proofToOutLink, ownless] at called
      obtain ⟨rfl, rfl⟩ := Prod.mk.inj (Except.ok.inj called)
      exact ⟨rfl, rfl⟩
    have silent : ((first.takeReceipt packet radio).relayProof crates around packet iface).2 = [] := by
      rw [relayProof_snd, receipt]
      simp [LinkTable.handleProof, linkless]
    rw [sent, silent, returned, List.nil_append, List.nil_append]

end TransportHandler

namespace Waypoint

variable {relay relay' : Waypoint} {packet forwarded proof : Packet} {key : AddressHash}

/-- A relay that passes a packet on records it under the hash it came with. -/
theorem passData_recorded {clock : Waypoint → Instant}
    (passed : relay.passData clock packet = some (relay', forwarded)) :
    SameMessage packet forwarded ∧ relay'.upstream = relay.upstream ∧
      relay'.downstream = relay.downstream ∧ relay'.Recorded (.newFromHash packet.hash) := by
  -- Forwarding notes the packet's truncated hash with the interface it went out on.
  unfold passData at passed
  split at passed
  · split at passed
    · rename_i handler iface sentPacket sent
      split at passed
      · rename_i onward
        obtain ⟨rfl, rfl⟩ := Prod.mk.inj (Option.some.inj passed)
        obtain ⟨outbound, direct, same, entry⟩ := TransportHandler.forwardSingleData_sent sent
        obtain rfl := TxMessageType.direct.inj direct
        have received := received_same packet
        exact ⟨received.trans same, rfl, rfl, _, received.hash ▸ entry, rfl, onward⟩
      · cases passed
    · cases passed
  · cases passed

/-- A relay that recorded a packet passes its proof on, and forgets the packet. -/
theorem passProof_returns (recorded : relay.Recorded key) (addressed : proof.destination = key) :
    ∃ after returned, relay.passProof proof = some (after, returned) ∧ relay.Consumed key after ∧
      SameMessage proof returned := by
  -- The proof is addressed by the same truncated hash and comes back over that interface.
  obtain ⟨entry, found, back, onward⟩ := recorded
  have received : proof.received.destination = key := addressed
  have here : relay.handler.reverseTable.lookup proof.received.destination = some entry := by
    rw [received, found]
  have returned := TransportHandler.reverseProof_found relay.downstream here
  rw [if_pos onward.symm, back, received] at returned
  refine ⟨_, (ReverseTable.sendBackwards proof.received entry).1, ?_, ⟨rfl, ?_⟩,
    ⟨rfl, rfl, rfl, rfl, rfl⟩⟩
  · rw [passProof, returned]
    exact if_pos rfl
  · exact Table.size_erase (Table.mem_of_lookup found)

/-- What a relay that recorded a packet does with any proof for it. -/
theorem Recorded.returnsProof (recorded : relay.Recorded key) : relay.ReturnsProof key := by
  -- The entry recorded is the one the proof's address finds.
  obtain ⟨entry, found, back, onward⟩ := recorded
  rintro crates around radio proof iface rfl
  have returned := TransportHandler.reverseProof_found iface found
  refine ⟨?_, fun after pending handled => ?_⟩
  · rw [returned, back, onward]
    rfl
  · obtain ⟨table, sent, only⟩ := TransportHandler.handleProof_reverse handled
    exact ⟨by rw [table, returned], sent, only⟩

end Waypoint

open Waypoint in
/--
A packet carried through a chain of relays is recorded by each of them under the address of the proof
its destination builds. As long as they remember it, that proof is carried back through the chain
unchanged, consumes one entry of each relay, and is forwarded from no other interface.
-/
theorem packet_proofs_return {clock : Waypoint → Instant} {chain chain' : List Waypoint}
    {packet arrived : Packet} (destination : SingleInputDestination)
    (carried : carry (passData clock) chain packet = some (chain', arrived)) :
    let proof := destination.proofPacket arrived.received.hash
    proof.destination = .newFromHash packet.hash ∧
    List.Forall₂ (fun relay relay' => relay'.upstream = relay.upstream ∧
      relay'.downstream = relay.downstream ∧ relay'.Recorded proof.destination) chain chain' ∧
    ∀ later, List.Forall₂ (Remembers proof.destination) chain' later →
      (∀ relay ∈ later, relay.ReturnsProof proof.destination) ∧
      ∃ final returned, carryBack passProof later proof = some (final, returned) ∧
        SameMessage proof returned ∧ List.Forall₂ (Consumed proof.destination) later final := by
  intro proof
  -- Down the chain the packet stays the same message, so every relay has the same key.
  obtain ⟨recorded, same⟩ := carry_related
    (fun relay relay' => relay'.upstream = relay.upstream ∧
      relay'.downstream = relay.downstream ∧ relay'.Recorded (.newFromHash packet.hash))
    (SameMessage packet)
    (fun relay message relay' message' same passed => by
      obtain ⟨onward, upstream, downstream, entry⟩ := passData_recorded passed
      exact ⟨⟨upstream, downstream, same.hash ▸ entry⟩, same.trans onward⟩)
    (SameMessage.refl packet) carried
  have key : proof.destination = .newFromHash packet.hash :=
    congrArg AddressHash.newFromHash (same.trans (received_same arrived)).hash
  refine ⟨key, key ▸ recorded, fun later remembers => ?_⟩
  have ready : ∀ relay ∈ later, relay.Recorded proof.destination := by
    refine related_right remembers (related_right recorded (fun _ _ => trivial)
      fun _ relay _ passed => key ▸ passed.2.2) ?_
    rintro relay after ⟨entry, found, back, onward⟩ remembered
    exact ⟨entry, remembered.entry.trans found, remembered.upstream ▸ back,
      remembered.downstream ▸ onward⟩
  refine ⟨fun relay member => (ready relay member).returnsProof, ?_⟩
  obtain ⟨final, returned, back, consumed, unchanged⟩ := carryBack_related
    (Recorded proof.destination) (Consumed proof.destination) (SameMessage proof)
    (fun relay message recorded same => by
      obtain ⟨after, returned, passed, consumed, onward⟩ :=
        passProof_returns recorded same.destination
      exact ⟨after, returned, passed, consumed, same.trans onward⟩)
    ready (SameMessage.refl proof)
  exact ⟨final, returned, back, unchanged, consumed⟩

/-- A relay for concrete runs, with a path of some hops to one destination. -/
private def waypointTo (upstream downstream : UInt8) (hops : UInt8) : Waypoint where
  upstream := .filled upstream
  downstream := .filled downstream
  handler := { TransportHandler.new ⟨.filled 0, false, true, true, false⟩ with
    pathTable := ⟨AList.singleton (.filled 9) {
      timestamp := 0
      receivedFrom := .filled 8
      hops := hops
      iface := .filled downstream
      expires := 0
      pathExpiry := 0 }⟩ }

/-- Through two relays, the second of which has both its neighbours on one interface. -/
theorem packet_proofs_return_two :
    ∃ chain' arrived final returned,
      carry (Waypoint.passData fun _ => 0) [waypointTo 1 2 2, waypointTo 3 3 1]
        ⟨{}, none, .filled 9, none, .none, [1, 2, 3]⟩ = some (chain', arrived) ∧
      carryBack Waypoint.passProof chain' (SingleInputDestination.proofPacket
        ⟨⟨⟨.filled 0, .filled 0⟩, .filled 9⟩, true, Link.sampleSign⟩ arrived.received.hash) =
          some (final, returned) := by
  let destination : SingleInputDestination :=
    ⟨⟨⟨.filled 0, .filled 0⟩, .filled 9⟩, true, Link.sampleSign⟩
  obtain ⟨chain', arrived, carried⟩ : ∃ chain' arrived,
      carry (Waypoint.passData fun _ => 0) [waypointTo 1 2 2, waypointTo 3 3 1]
        ⟨{}, none, .filled 9, none, .none, [1, 2, 3]⟩ = some (chain', arrived) := ⟨_, _, rfl⟩
  -- Nothing else happens to the relays meanwhile.
  obtain ⟨-, -, returns⟩ := packet_proofs_return destination carried
  obtain ⟨-, final, returned, back, -⟩ :=
    returns chain' (List.forall₂_same.mpr fun _ _ => ⟨rfl, rfl, rfl⟩)
  exact ⟨chain', arrived, final, returned, carried, back⟩

end Reticulum
