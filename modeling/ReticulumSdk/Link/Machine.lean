import ReticulumSdk.Base.Msgpack
import ReticulumSdk.Channel.Inbound
import ReticulumSdk.Link.Establish
import ReticulumSdk.Link.Payload
import ReticulumSdk.Link.Reorder

/-! A link of this node as a machine: the packets it is given, what it answers, and the events it posts. -/

namespace Reticulum

/-- `KEEPALIVE_INTERVAL`: six minutes. -/
def KEEPALIVE_INTERVAL : Duration := 360 * nanosPerSec

/-- `DEFAULT_ESTABLISHMENT_TIMEOUT`: half a minute. -/
def DEFAULT_ESTABLISHMENT_TIMEOUT : Duration := 30 * nanosPerSec

/-- `LINK_REQUEST_RETRY_INTERVAL`: six seconds. -/
def LINK_REQUEST_RETRY_INTERVAL : Duration := 6 * nanosPerSec

/-- What a link takes from other crates: ciphers, curves and the MessagePack reader. -/
structure Crates where
  suite : CipherSuite
  curves : Curves
  /-- `rmpv::decode::read_value`. -/
  readValue : Bytes → Option Value

/-- `LinkHandleResult`. -/
inductive LinkHandleResult where
  | none
  | wrongInterface
  | activated
  | keepAlive
  | messageReceived (proof : Option Packet)
  deriving DecidableEq

/-- `LinkRequest`. -/
structure LinkRequest where
  requestId : AddressHash
  requestIdRaw : Bytes
  pathHash : AddressHash
  pathHashRaw : Bytes
  requestedAt : UInt64
  data : Value

/-- `LinkResponse`. -/
structure LinkResponse where
  requestId : AddressHash
  data : Value

/-- `LinkResourcePacket`. -/
structure LinkResourcePacket where
  context : PacketContext
  data : Bytes
  packetHash : Hash

/-- `LinkEvent`. -/
inductive LinkEvent where
  | activated
  | data (payload : Bytes)
  | remoteIdentified (identity : Identity)
  | request (request : LinkRequest)
  | response (response : LinkResponse)
  | channel (envelope : Link.ChannelEnvelope)
  | proof (hash : Hash)
  | resource (packet : LinkResourcePacket)
  | closed

/-- `LinkEventData`. -/
structure LinkEventData where
  id : AddressHash
  addressHash : AddressHash
  iface : Option AddressHash
  event : LinkEvent

/--
A `Link` with everything its packet handlers read, every event it ever posted, and, kept only to
speak about them, the packets its `handle_packet` was called with.
-/
structure LocalLink extends Link where
  destination : DestinationDesc
  /-- The public half of `priv_identity`. -/
  identity : Identity
  /-- `priv_identity.derive_key`, by the peer's public key and the salt. -/
  deriveKey : PublicKey → Bytes → Bytes
  derivedKey : Bytes
  requestTime : Instant
  establishmentDeadline : Instant
  nextRetryTime : Instant
  lastKeepalive : Instant
  keepalive : Duration
  provesMessages : Bool
  channelRx : Link.ChannelRx
  /-- What was sent on `channel_tx`, when the channel is bound. -/
  channelTx : Option (List Bytes)
  /-- The length of `decrypt_buffer`. -/
  decryptBuffer : Nat
  attachedInterface : Option AddressHash
  events : List LinkEventData
  handled : List Packet

/-- `ChannelEnvelope::unpack`, which checks the length field. -/
def Link.ChannelEnvelope.unpack : Bytes → Except RnsError Link.ChannelEnvelope
  | t0 :: t1 :: s0 :: s1 :: l0 :: l1 :: payload =>
    if payload.length ≠ (Channel.fromBeBytes l0 l1).toNat then .error .packetError
    else .ok {
      msgType := Channel.fromBeBytes t0 t1
      sequence := Channel.fromBeBytes s0 s1
      payload := payload }
  | _ => .error .packetError

/-- `address_hash_from_raw`: the front of the bytes, filled up with zeros. -/
def addressHashFromRaw (raw : Bytes) : AddressHash where
  bytes := (raw ++ List.replicate ADDRESS_HASH_SIZE 0).take ADDRESS_HASH_SIZE
  length_eq := by simp

/-- `python_request_id`. -/
def pythonRequestId (packet : Packet) : Bytes := packet.hash.bytes.take ADDRESS_HASH_SIZE

/-- `decode_link_request`. -/
def decodeLinkRequest (crates : Crates) (data : Bytes) (requestId : AddressHash)
    (requestIdRaw : Bytes) : Option LinkRequest := do
  match (← (← crates.readValue data).asArray) with
  | [time, path, body] =>
    let requestedAt ← time.asF64
    let pathHashRaw ← path.asSlice
    return {
      requestId := requestId
      requestIdRaw := requestIdRaw
      pathHash := addressHashFromRaw pathHashRaw
      pathHashRaw := pathHashRaw
      requestedAt := requestedAt
      data := body }
  | _ => none

/-- `decode_link_response`. -/
def decodeLinkResponse (crates : Crates) (data : Bytes) : Option LinkResponse := do
  match (← (← crates.readValue data).asArray) with
  | [id, body] =>
    let raw ← id.asSlice
    if width : raw.length = ADDRESS_HASH_SIZE then
      return { requestId := ⟨raw, width⟩, data := body }
    else none
  | _ => none

/-- `KEEP_ALIVE_REQUEST`. -/
def KEEP_ALIVE_REQUEST : UInt8 := 0xFF

/-- `KEEP_ALIVE_RESPONSE`. -/
def KEEP_ALIVE_RESPONSE : UInt8 := 0xFE

namespace LocalLink

/-- `Link::post_event`. -/
def postEvent (link : LocalLink) (event : LinkEvent) : LocalLink :=
  { link with events := link.events ++ [{
      id := link.id
      addressHash := link.destination.addressHash
      iface := link.attachedInterface
      event := event }] }

/-- `Link::mark_activity`. -/
def markActivity (link : LocalLink) (now : Instant) : LocalLink := { link with requestTime := now }

/-- `Link::close`. -/
def close (link : LocalLink) : LocalLink :=
  { link with status := .closed }.postEvent .closed

/-- `Link::keep_alive_packet`. -/
def keepAlivePacket (link : LocalLink) (data : UInt8) : Packet where
  header := Link.header .data
  destination := link.id
  transport := none
  context := .keepAlive
  data := [data]

/-- `Link::raw_data_packet`. -/
def rawDataPacket (link : LocalLink) (data : Bytes) (context : PacketContext)
    (packetType : PacketType) : Except RnsError Packet :=
  if link.status ≠ .active ∧ link.status ≠ .stale then .error .linkClosed
  else if data.length > link.mdu then .error .outOfMemory
  else .ok {
    header := Link.header packetType
    destination := link.id
    transport := none
    context := context
    data := data }

/-- `Link::resource_part_packet`. -/
def resourcePartPacket (link : LocalLink) (data : Bytes) : Except RnsError Packet :=
  link.rawDataPacket data .resource .data

/-- `Link::resource_proof_packet`. -/
def resourceProofPacket (link : LocalLink) (data : Bytes) : Except RnsError Packet :=
  link.rawDataPacket data .resourceProof .proof

/-- The packet `Link::prove` returns: a signature, the key to agree on and the size. -/
def provePacket (link : LocalLink) : Packet where
  header := Link.header .proof
  destination := link.id
  transport := none
  context := .linkRequestProof
  data :=
    let signalling := linkSignallingBytes link.mtu
    let signed := proofSigned link.id link.identity.publicKey link.identity.verifyingKey signalling
    (link.sign signed).bytes ++ link.identity.publicKey.bytes ++ signalling

/-- `Link::prove`. -/
def prove (link : LocalLink) : LocalLink × Packet :=
  let proven := if link.status ≠ .active then { link with status := .active }.postEvent .activated
    else link
  (proven, proven.provePacket)

/-- `Link::handshake`. -/
def handshake (crates : Crates) (link : LocalLink) (peer : Identity) : LocalLink :=
  { link with
    status := .handshake
    verifyPeer := crates.curves.verify peer.verifyingKey
    derivedKey := link.deriveKey peer.publicKey link.id.bytes }

/-- `Link::decrypt_into_owned`, under the key the link agreed on. -/
def decryptIntoOwned (crates : Crates) (link : LocalLink) (text : Bytes) :
    Except RnsError Bytes × LocalLink :=
  let fernet := Fernet.ofDerivedKey crates.suite link.derivedKey
  let (plain, buffer) := link.toLink.decryptIntoOwned fernet text link.decryptBuffer
  (plain, { link with decryptBuffer := buffer })

/-- `Link::validate_link_identify`. -/
def validateLinkIdentify (crates : Crates) (link : LocalLink) (plaintext : Bytes) :
    Except RnsError Identity :=
  if length : plaintext.length = PUBLIC_KEY_LENGTH * 2 + SIGNATURE_LENGTH then do
    have width : PUBLIC_KEY_LENGTH = 32 := rfl
    let publicKey : PublicKey := ⟨plaintext.take PUBLIC_KEY_LENGTH, by rw [List.length_take]; omega⟩
    let verifyingKey : PublicKey :=
      ⟨(plaintext.drop PUBLIC_KEY_LENGTH).take PUBLIC_KEY_LENGTH, by
        rw [List.length_take, List.length_drop]; omega⟩
    let identity ← Identity.newFromSlices crates.curves publicKey verifyingKey
    let signature : Signature :=
      ⟨plaintext.drop (PUBLIC_KEY_LENGTH * 2), by rw [List.length_drop]; omega⟩
    if crates.curves.verify verifyingKey (link.id.bytes ++ plaintext.take (PUBLIC_KEY_LENGTH * 2))
        signature then
      return identity
    else throw .incorrectSignature
  else .error .packetError

/-- The proof a received message is answered with, when the link proves messages. -/
def proofOf (link : LocalLink) (packet : Packet) : Option Packet :=
  if link.provesMessages then some (link.messageProof packet.hash) else none

/-- Decrypt a packet and use its payload; what cannot be decrypted is only logged. -/
def withPayload (crates : Crates) (link : LocalLink) (packet : Packet)
    (use : LocalLink → Bytes → LinkHandleResult × LocalLink) : LinkHandleResult × LocalLink :=
  match link.decryptIntoOwned crates packet.data with
  | (.ok plainText, link) => use link plainText
  | (.error _, link) => (.none, link)

/-- `handle_channel_envelope`, with the events it posts. -/
def handleChannelEnvelope (link : LocalLink) (now : Instant) (envelope : Link.ChannelEnvelope) :
    LocalLink :=
  let rx := link.channelRx.handleChannelEnvelope now envelope
  let fresh := rx.posted.drop link.channelRx.posted.length
  fresh.foldl (fun link envelope => link.postEvent (.channel envelope)) { link with channelRx := rx }

/-- The `None` context of `handle_data_packet`. -/
def handleMessage (link : LocalLink) (now : Instant) (packet : Packet) (plainText : Bytes) :
    LinkHandleResult × LocalLink :=
  (.messageReceived (link.proofOf packet), (link.markActivity now).postEvent (.data plainText))

/-- The `LinkIdentify` context. -/
def handleIdentify (crates : Crates) (link : LocalLink) (now : Instant) (plainText : Bytes) :
    LinkHandleResult × LocalLink :=
  match link.validateLinkIdentify crates plainText with
  | .ok identity => (.none, (link.markActivity now).postEvent (.remoteIdentified identity))
  | .error _ => (.none, link)

/-- The `Request` context. -/
def handleRequest (crates : Crates) (link : LocalLink) (now : Instant) (packet : Packet)
    (plainText : Bytes) : LinkHandleResult × LocalLink :=
  match decodeLinkRequest crates plainText (.newFromHash packet.hash) (pythonRequestId packet) with
  | some request => (.none, (link.markActivity now).postEvent (.request request))
  | none => (.none, link)

/-- The `Response` context. -/
def handleResponse (crates : Crates) (link : LocalLink) (now : Instant) (plainText : Bytes) :
    LinkHandleResult × LocalLink :=
  match decodeLinkResponse crates plainText with
  | some response => (.none, (link.markActivity now).postEvent (.response response))
  | none => (.none, link)

/-- The `Channel` context, which a bound channel takes over. -/
def handleChannel (link : LocalLink) (now : Instant) (packet : Packet) (plainText : Bytes) :
    LinkHandleResult × LocalLink :=
  match link.channelTx with
  | some sent =>
    (.messageReceived (link.proofOf packet),
      { link with channelTx := some (sent ++ [plainText]), requestTime := now })
  | none =>
    match Link.ChannelEnvelope.unpack plainText with
    | .ok envelope =>
      (.messageReceived (link.proofOf packet), (link.markActivity now).handleChannelEnvelope now envelope)
    | .error _ => (.none, link)

/-- The `LinkRTT` context; a float that is no duration stops the thread. -/
def handleRtt (crates : Crates) (link : LocalLink) (packet : Packet) :
    Outcome (LinkHandleResult × LocalLink) :=
  match link.decryptIntoOwned crates packet.data with
  | (.error _, link) => .ok (.none, link)
  | (.ok plainText, link) =>
    match readF64 plainText with
    | none => .ok (.none, link)
    | some secs => do
      let rtt ← Duration.fromSecsF64 secs
      return (.none, { link with rtt := rtt })

/-- The `LinkClose` context, whose payload must be the link's id. -/
def handleClose (link : LocalLink) (plainText : Bytes) : LinkHandleResult × LocalLink :=
  (.none, if link.id.bytes = plainText then link.close else link)

/-- The `KeepAlive` context. -/
def handleKeepAlive (link : LocalLink) (now : Instant) (packet : Packet) :
    LinkHandleResult × LocalLink :=
  match packet.data.head? with
  | some byte =>
    if byte = KEEP_ALIVE_REQUEST then (.keepAlive, link.markActivity now)
    else if byte = KEEP_ALIVE_RESPONSE then (.none, link.markActivity now)
    else (.none, link)
  | none => (.none, link)

/-- The event of a resource packet. -/
def postResource (link : LocalLink) (now : Instant) (packet : Packet) (data : Bytes) :
    LinkHandleResult × LocalLink :=
  (.none, (link.markActivity now).postEvent (.resource {
    context := packet.context
    data := data
    packetHash := packet.hash }))

/-- `handle_resource_packet`: parts and proofs are taken as they are, the rest is decrypted. -/
def handleResourcePacket (crates : Crates) (link : LocalLink) (now : Instant) (packet : Packet) :
    LinkHandleResult × LocalLink :=
  match packet.context with
  | .resource | .resourceProof => link.postResource now packet packet.data
  | .resourceAdvertisement | .resourceRequest | .resourceHashUpdate | .resourceInitiatorCancel
  | .resourceReceiverCancel =>
    link.withPayload crates packet fun link plainText => link.postResource now packet plainText
  | _ => (.none, link)

/-- `handle_data_packet`. -/
def handleDataPacket (crates : Crates) (link : LocalLink) (now : Instant) (packet : Packet)
    (outLink : Bool) : Outcome (LinkHandleResult × LocalLink) :=
  match packet.context with
  | .none =>
    .ok (link.withPayload crates packet fun link plainText => link.handleMessage now packet plainText)
  | .linkIdentify =>
    if outLink then .ok (.none, link)
    else .ok (link.withPayload crates packet fun link plainText =>
      link.handleIdentify crates now plainText)
  | .request =>
    .ok (link.withPayload crates packet fun link plainText =>
      link.handleRequest crates now packet plainText)
  | .response =>
    .ok (link.withPayload crates packet fun link plainText =>
      link.handleResponse crates now plainText)
  | .channel =>
    .ok (link.withPayload crates packet fun link plainText => link.handleChannel now packet plainText)
  | .resource | .resourceProof | .resourceAdvertisement | .resourceRequest | .resourceHashUpdate
  | .resourceInitiatorCancel | .resourceReceiverCancel =>
    .ok (link.handleResourcePacket crates now packet)
  | .keepAlive => .ok (link.handleKeepAlive now packet)
  | .linkRTT => if outLink then .ok (.none, link) else link.handleRtt crates packet
  | .linkClose => .ok (link.withPayload crates packet fun link plainText => link.handleClose plainText)
  | _ => .ok (.none, link)

/-- The first test of `handle_proof_packet`: a pending link is activated by the proof of its destination. -/
def activateBy (crates : Crates) (link : LocalLink) (now : Instant) (packet : Packet) :
    Option LocalLink :=
  if link.status = .pending ∧ packet.context = .linkRequestProof then
    match validateProofPacket crates.curves link.destination link.id packet with
    | .ok (identity, confirmedMtu) =>
      let shaken := { link with mtu := confirmedMtu }.handshake crates identity
      some ({ shaken with
        status := .active
        rtt := now.durationSince link.requestTime
        requestTime := now }.postEvent .activated)
    | .error _ => none
  else none

/-- `handle_proof_packet`. -/
def handleProofPacket (crates : Crates) (link : LocalLink) (now : Instant) (packet : Packet) :
    LinkHandleResult × LocalLink :=
  match link.activateBy crates now packet with
  | some link => (.activated, link)
  | none =>
    if link.status = .active ∧ packet.context = .none then
      match Link.validateMessageProof link.verifyPeer packet.data none with
      | .ok hash => (.none, link.postEvent (.proof hash))
      | .error _ => (.none, link)
    else (.none, link)

/-- Note a packet that `handle_packet` was called with. -/
def note (link : LocalLink) (packet : Packet) : LocalLink :=
  { link with handled := link.handled ++ [packet] }

/-- `Link::handle_packet`, which is noted. -/
def handlePacket (crates : Crates) (link : LocalLink) (now : Instant) (packet : Packet)
    (outLink : Bool) : Outcome (LinkHandleResult × LocalLink) :=
  let link := link.note packet
  if packet.destination ≠ link.id then .ok (.none, link)
  else match packet.header.packetType with
    | .data => link.handleDataPacket crates now packet outLink
    | .proof =>
      if packet.context = .resourceProof then .ok (link.handleResourcePacket crates now packet)
      else .ok (link.handleProofPacket crates now packet)
    | _ => .ok (.none, link)

/-- `Link::accepts_interface`. -/
def acceptsInterface (link : LocalLink) (iface : AddressHash) : Bool :=
  match link.attachedInterface with
  | some attached => attached = iface
  | none => true

/-- `Link::handle_packet_from`. -/
def handlePacketFrom (crates : Crates) (link : LocalLink) (now : Instant) (packet : Packet)
    (outLink : Bool) (iface : AddressHash) : Outcome (LinkHandleResult × LocalLink) :=
  if ¬ link.acceptsInterface iface then .ok (.wrongInterface, link)
  else
    let tentativeBind := outLink ∧ link.attachedInterface = none ∧
      packet.header.packetType = .proof ∧ packet.context = .linkRequestProof
    let bound := if tentativeBind then { link with attachedInterface := some iface } else link
    do
      let (result, link) ← bound.handlePacket crates now packet outLink
      -- A proof that did not activate the link leaves it open to other interfaces.
      if tentativeBind ∧ result ≠ .activated then
        return (result, { link with attachedInterface := none })
      else return (result, link)

/-- An active link for concrete runs, bound to an interface, whose two ends sign alike. -/
def sample (iface : AddressHash) : LocalLink where
  toLink := .sample
  destination := ⟨⟨.filled 0, .filled 0⟩, .filled 9⟩
  identity := ⟨.filled 0, .filled 0⟩
  deriveKey _ _ := List.replicate DERIVED_KEY_LENGTH 0
  derivedKey := List.replicate DERIVED_KEY_LENGTH 0
  requestTime := 0
  establishmentDeadline := DEFAULT_ESTABLISHMENT_TIMEOUT
  nextRetryTime := 0
  lastKeepalive := 0
  keepalive := KEEPALIVE_INTERVAL
  provesMessages := true
  channelRx := .new 0
  channelTx := none
  decryptBuffer := 0
  attachedInterface := some iface
  events := []
  handled := []

end LocalLink

/-- Crates for concrete runs: padding without encryption, one signature to a text, no values. -/
def Crates.sample : Crates where
  suite := .plain
  curves := .sample
  readValue _ := none

end Reticulum
