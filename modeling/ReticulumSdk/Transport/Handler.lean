import ReticulumSdk.Link.Machine
import ReticulumSdk.Transport.Caches
import ReticulumSdk.Transport.LinkTable

/-! The transport of a node: its tables, its links, and how it handles link requests, proofs and link data. -/

namespace Reticulum

/-- `PATHFINDER_M`: the most hops a packet travels. -/
def PATHFINDER_M : UInt8 := 128

/-- `TxMessageType`. -/
inductive TxMessageType where
  | broadcast (excluded : Option AddressHash)
  | direct (iface : AddressHash)
  | broadcastFrom (origin : AddressHash)
  deriving DecidableEq

/-- `TxMessage`. -/
structure TxMessage where
  txType : TxMessageType
  packet : Packet
  deriving DecidableEq

/-- `PendingProof`. -/
structure PendingProof where
  originalPacketHash : Hash
  destinationAddress : AddressHash
  createdAt : Instant
  deriving DecidableEq

/-- The radio readings of a received packet, the float by its bits. -/
structure Radio where
  snr : Option UInt32
  rssi : Option Int16
  deriving DecidableEq

/-- `PacketReceipt`. -/
structure PacketReceipt where
  packetHash : Hash
  destination : AddressHash
  radio : Radio
  deriving DecidableEq

/-- `SingleInputDestination`, as far as link requests read it. -/
structure SingleInputDestination where
  desc : DestinationDesc
  acceptLinkRequests : Bool
  /-- Signing with `sign_key`. -/
  sign : Bytes → Signature

/-- `TransportConfig`, as far as links read it; the identity by its address hash. -/
structure TransportConfig where
  identity : AddressHash
  restartOutlinks : Bool
  pathRebalance : Bool
  linkMtuDiscovery : Bool
  proveLinkMessages : Bool

/--
`TransportHandler` with its `SendCtx`. Out-links are shared between two maps, which hold their
places in `outLink`. Every receipt ever sent on `receipt_tx` is kept.
-/
structure TransportHandler where
  config : TransportConfig
  pathTable : PathTable
  packetCache : PacketCache
  linkIfaces : Table AddressHash AddressHash
  /-- What `iface_manager.hw_mtu` answers. -/
  hwMtu : AddressHash → Option Nat
  linkTable : LinkTable
  reverseTable : ReverseTable
  singleInDestinations : Table AddressHash SingleInputDestination
  singleOutDestinations : Table AddressHash DestinationDesc
  outLink : Nat → LocalLink
  outLinks : Table AddressHash Nat
  outLinksByLinkId : Table AddressHash Nat
  inLinks : Table AddressHash LocalLink
  pendingProofs : Table AddressHash PendingProof
  receipts : List PacketReceipt
  packetsDroppedDuplicate : Nat

/-- The transport of a node that has heard nothing yet. -/
def TransportHandler.new (config : TransportConfig) : TransportHandler where
  config := config
  pathTable := ⟨∅⟩
  packetCache := .new
  linkIfaces := ∅
  hwMtu _ := none
  linkTable := ∅
  reverseTable := ∅
  singleInDestinations := ∅
  singleOutDestinations := ∅
  -- No map holds a place yet.
  outLink _ := .sample (.filled 0)
  outLinks := ∅
  outLinksByLinkId := ∅
  inLinks := ∅
  pendingProofs := ∅
  receipts := []
  packetsDroppedDuplicate := 0

/-- `LinkStatus::not_yet_active`. -/
def LinkStatus.notYetActive (status : LinkStatus) : Bool :=
  status = .pending ∨ status = .handshake

/-- What a reception does to a packet first: one more hop, up to the largest count. -/
def Packet.received (packet : Packet) : Packet :=
  { packet with header := { packet.header with
      hops := if packet.header.hops = 255 then 255 else packet.header.hops + 1 } }

namespace TransportHandler

/-- `accepts_transport_packet`. -/
def acceptsTransportPacket (handler : TransportHandler) (packet : Packet) : Bool :=
  packet.header.packetType = .announce ∨ packet.transport.all (· = handler.config.identity)

/-- The `allow_duplicate` of `filter_duplicate_packets`. -/
def allowDuplicate (handler : TransportHandler) (packet : Packet) : Bool :=
  match packet.header.packetType with
  | .announce => packet.header.destinationType = .single
  | .linkRequest => true
  | .data => packet.context = .keepAlive
  | .proof =>
    packet.context = .linkRequestProof ∧
      (handler.inLinks.lookup packet.destination).any fun link => link.status.notYetActive

/-- `filter_duplicate_packets`. -/
def filterDuplicatePackets (handler : TransportHandler) (now : Instant) (packet : Packet) :
    Bool × TransportHandler :=
  let (isNew, cache) := handler.packetCache.update now packet
  let passed := isNew || handler.allowDuplicate packet
  (passed, { handler with
    packetCache := cache
    packetsDroppedDuplicate := handler.packetsDroppedDuplicate + if passed then 0 else 1 })

/-- `SendCtx::prepare`. -/
def prepare (handler : TransportHandler) (now : Instant) (packet : Packet) :
    TxMessage × TransportHandler :=
  if packet.header.destinationType = .link then
    let txType := match handler.linkIfaces.lookup packet.destination with
      | some iface => .direct iface
      | none => .broadcast none
    (⟨txType, packet⟩, { handler with packetCache := (handler.packetCache.update now packet).2 })
  else match handler.pathTable.handlePacket packet with
    | (routed, some iface) =>
      (⟨.direct iface, routed⟩, { handler with
        pathTable := handler.pathTable.refresh now packet.destination
        packetCache := (handler.packetCache.update now routed).2 })
    | (routed, none) =>
      (⟨.broadcast none, routed⟩,
        { handler with packetCache := (handler.packetCache.update now routed).2 })

/-- `apply_path_rebalance`. -/
def applyPathRebalance (handler : TransportHandler) (destination : AddressHash) (proofHops : UInt8) :
    TransportHandler :=
  { handler with pathTable := handler.pathTable.rebalanceHops destination proofHops }

/-- The packet's hash is forgotten, so that a copy on the right interface is not a duplicate. -/
def release (handler : TransportHandler) (packet : Packet) : TransportHandler :=
  { handler with packetCache := handler.packetCache.releasePacket packet }

/-- An out-link after a call that changed it. -/
def setOutLink (handler : TransportHandler) (place : Nat) (link : LocalLink) : TransportHandler :=
  { handler with outLink := Function.update handler.outLink place link }

/-- The out-link a link address names. -/
def outLinkById (handler : TransportHandler) (linkId : AddressHash) : Option LocalLink :=
  (handler.outLinksByLinkId.lookup linkId).map handler.outLink

end TransportHandler

/-- `rmp::encode::write_f64`. -/
def writeF64 (number : Float) : Bytes :=
  let bits := number.toBits
  0xCB :: (List.range 8).map fun i => (bits >>> (UInt64.ofNat (56 - 8 * i))).toUInt8

/-- `Link::create_rtt`, which expects the encryption to succeed. -/
def LocalLink.createRtt (crates : Crates) (link : LocalLink) (iv : Iv) : Outcome Packet :=
  match ((Fernet.ofDerivedKey crates.suite link.derivedKey).cipher iv).run
      (writeF64 (Duration.asSecsF64 link.rtt)) with
  | .ok token => .ok {
      header := Link.header .data
      destination := link.id
      transport := none
      context := .linkRTT
      data := token }
  | .error _ => .error .unwrapFailed

/-- What one call reads from outside: the clock, a random vector, and whether a lock was taken. -/
structure Surroundings where
  now : Instant
  iv : Iv
  /-- `try_lock` on the destination failed. -/
  contended : Bool

namespace TransportHandler

variable (crates : Crates) (around : Surroundings)

/-- The first part of `handle_proof`: the out-link the proof is addressed to. -/
def proofToOutLink (handler : TransportHandler) (packet : Packet) (iface : AddressHash) :
    Outcome (TransportHandler × List TxMessage) :=
  match handler.outLinksByLinkId.lookup packet.destination with
  | none => .ok (handler, [])
  | some place => do
    let (result, link) ←
      (handler.outLink place).handlePacketFrom crates around.now packet true iface
    let handler := handler.setOutLink place link
    match result with
    | .wrongInterface => return (handler.release packet, [])
    | .activated =>
      let bound := { handler with
        linkIfaces := handler.linkIfaces.insert packet.destination iface }
      let rttPacket ← link.createRtt crates around.iv
      let (message, sent) := bound.prepare around.now rttPacket
      if handler.config.pathRebalance ∧ packet.context = .linkRequestProof then
        return (sent.applyPathRebalance link.destination.addressHash packet.header.hops, [message])
      else return (sent, [message])
    | _ => return (handler, [])

/-- The second part: the packet whose proof is awaited under this address gets its receipt. -/
def takeReceipt (handler : TransportHandler) (packet : Packet) (radio : Radio) : TransportHandler :=
  match handler.pendingProofs.lookup packet.destination with
  | none => handler
  | some pending => { handler with
      pendingProofs := handler.pendingProofs.erase packet.destination
      receipts := handler.receipts ++ [{
        packetHash := pending.originalPacketHash
        destination := pending.destinationAddress
        radio := radio }] }

/-- `verify_relay_lrproof`. -/
def verifyRelayLrproof (handler : TransportHandler) (proof : Packet) (destination : AddressHash) :
    Bool :=
  match handler.singleOutDestinations.lookup destination with
  | none => false
  | some desc =>
    ¬ around.contended ∧
      (validateProofPacket crates.curves desc proof.destination proof).toBool

/-- The third part: the relayed link the proof belongs to. -/
def relayProof (handler : TransportHandler) (packet : Packet) (iface : AddressHash) :
    TransportHandler × List TxMessage :=
  match handler.linkTable.handleProof around.now packet iface with
  | (none, table) => ({ handler with linkTable := table }, [])
  | (some outcome, table) =>
    let relayed := { handler with linkTable := table }
    let rebalanced := match outcome.rebalance with
      | some info =>
        if relayed.config.pathRebalance ∧
            relayed.verifyRelayLrproof crates around packet info.destination then
          relayed.applyPathRebalance info.destination info.hops
        else relayed
      | none => relayed
    (rebalanced, [⟨.direct outcome.propagation.2, outcome.propagation.1⟩])

/-- The last part: the way back of a forwarded packet. -/
def reverseProof (handler : TransportHandler) (packet : Packet) (iface : AddressHash) :
    TransportHandler × List TxMessage :=
  match handler.reverseTable.handleProof packet iface with
  | (none, table) => ({ handler with reverseTable := table }, [])
  | (some (back, backIface), table) =>
    ({ handler with reverseTable := table }, [⟨.direct backIface, back⟩])

/-- `handle_proof`. -/
def handleProof (handler : TransportHandler) (packet : Packet) (radio : Radio) (iface : AddressHash) :
    Outcome (TransportHandler × List TxMessage) := do
  let (handler, activation) ← handler.proofToOutLink crates around packet iface
  let handler := handler.takeReceipt packet radio
  let (handler, relayed) := handler.relayProof crates around packet iface
  let (handler, returned) := handler.reverseProof packet iface
  return (handler, activation ++ relayed ++ returned)

/-- `resolve_next_hop`. -/
def resolveNextHop (handler : TransportHandler) (packet : Packet) (lookup : Option AddressHash) :
    Option (Packet × AddressHash) :=
  match handler.pathTable.handleInboundPacket packet lookup with
  | (routed, some iface) => some (routed, iface)
  | (_, none) => none

/-- `send_to_next_hop`. -/
def sendToNextHop (handler : TransportHandler) (now : Instant) (packet : Packet)
    (iface : AddressHash) : TransportHandler × List TxMessage :=
  ({ handler with pathTable := handler.pathTable.refresh now packet.destination },
    [⟨.direct iface, packet⟩])

/-- `handle_keepalive_response`: whether the packet ends here, and what is forwarded. -/
def handleKeepaliveResponse (handler : TransportHandler) (now : Instant) (packet : Packet) :
    Bool × Option TxMessage × TransportHandler :=
  if packet.context = .keepAlive then
    match packet.data.head? with
    | none => (true, none, handler)
    | some byte =>
      if byte = KEEP_ALIVE_RESPONSE then
        match handler.linkTable.handleKeepalive now packet with
        | (some (propagated, iface), table) =>
          (true, some ⟨.direct iface, propagated⟩, { handler with linkTable := table })
        | (none, table) => (true, none, { handler with linkTable := table })
      else (false, none, handler)
  else (false, none, handler)

/-- The first part of `handle_data` for a link: the in-link the packet is addressed to. -/
def dataToInLink (handler : TransportHandler) (packet : Packet) (iface : AddressHash) :
    Outcome (TransportHandler × List TxMessage) :=
  match handler.inLinks.lookup packet.destination with
  | none => .ok (handler, [])
  | some inLink => do
    let (result, link) ← inLink.handlePacketFrom crates around.now packet false iface
    let handler := { handler with inLinks := handler.inLinks.insert packet.destination link }
    match result with
    | .wrongInterface => return (handler.release packet, [])
    | .keepAlive =>
      let (message, handler) := handler.prepare around.now (link.keepAlivePacket KEEP_ALIVE_RESPONSE)
      return (handler, [message])
    | .messageReceived (some proof) =>
      let (message, handler) := handler.prepare around.now proof
      return (handler, [message])
    | _ => return (handler, [])

/-- The second part: the out-link, whose results other than a wrong interface are not looked at. -/
def dataToOutLink (handler : TransportHandler) (packet : Packet) (iface : AddressHash) :
    Outcome TransportHandler :=
  match handler.outLinksByLinkId.lookup packet.destination with
  | none => .ok handler
  | some place => do
    let (result, link) ←
      (handler.outLink place).handlePacketFrom crates around.now packet true iface
    let handler := handler.setOutLink place link
    if result = .wrongInterface then return handler.release packet else return handler

/-- The third part: the relayed link the packet belongs to. -/
def relayData (handler : TransportHandler) (now : Instant) (packet : Packet) (iface : AddressHash) :
    TransportHandler × List TxMessage :=
  match handler.handleKeepaliveResponse now packet with
  | (true, forwarded, handler) => (handler, forwarded.toList)
  | (false, _, handler) =>
    match handler.linkTable.handlePacket now packet iface with
    | (some (propagated, outbound), table) =>
      ({ handler with linkTable := table }, [⟨.direct outbound, propagated⟩])
    | (none, table) =>
      let handler := { handler with linkTable := table }
      match table.originalDestination packet.destination with
      | none => (handler, [])
      | some lookup =>
        match handler.resolveNextHop packet (some lookup) with
        | some (routed, outbound) => handler.sendToNextHop now routed outbound
        | none => (handler, [])

/-- `handle_data`, for a packet whose destination is a link. -/
def handleLinkData (handler : TransportHandler) (packet : Packet) (iface : AddressHash) :
    Outcome (TransportHandler × List TxMessage) := do
  let (handler, answers) ← handler.dataToInLink crates around packet iface
  let handler ← handler.dataToOutLink crates around packet iface
  let (handler, forwarded) := handler.relayData around.now packet iface
  return (handler, answers ++ forwarded)

end TransportHandler

end Reticulum
