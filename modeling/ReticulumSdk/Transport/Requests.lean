import ReticulumSdk.Transport.Handler

/-! Link requests: answered for an own destination, passed on along the path to another. -/

namespace Reticulum

/-- The random key pair of a new link: its public key and the keys it agrees on. -/
structure LinkSecret where
  publicKey : PublicKey
  deriveKey : PublicKey → Bytes → Bytes

/-- `Link::new_from_request`, with the random key pair of the call. -/
def LocalLink.newFromRequest (crates : Crates) (now : Instant) (secret : LinkSecret) (packet : Packet)
    (destination : SingleInputDestination) : Except RnsError LocalLink :=
  let data := packet.data
  if length : data.length = PUBLIC_KEY_LENGTH * 2 ∨
      data.length = PUBLIC_KEY_LENGTH * 2 + LINK_MTU_SIZE then do
    let publicKey : PublicKey := ⟨data.take PUBLIC_KEY_LENGTH, by rw [List.length_take]; omega⟩
    let verifyingKey : PublicKey :=
      ⟨(data.drop PUBLIC_KEY_LENGTH).take PUBLIC_KEY_LENGTH, by
        rw [List.length_take, List.length_drop]; omega⟩
    let peer ← Identity.newFromSlices crates.curves publicKey verifyingKey
    let signalling := data.drop (PUBLIC_KEY_LENGTH * 2)
    if data.length ≥ PUBLIC_KEY_LENGTH * 2 + LINK_MTU_SIZE ∧
        modeFromSignallingBytes signalling ≠ LINK_MODE_AES256_CBC then
      throw .invalidArgument
    let link : LocalLink := {
      id := packet.linkId
      status := .pending
      -- Without signalling bytes this is the default size.
      mtu := mtuFromSignallingBytes signalling
      rtt := 0
      sign := destination.sign
      verifyPeer := crates.curves.verify peer.verifyingKey
      destination := destination.desc
      identity := ⟨secret.publicKey, destination.desc.identity.verifyingKey⟩
      deriveKey := secret.deriveKey
      derivedKey := List.replicate DERIVED_KEY_LENGTH 0
      requestTime := now
      establishmentDeadline := now + DEFAULT_ESTABLISHMENT_TIMEOUT
      nextRetryTime := now
      lastKeepalive := now
      keepalive := KEEPALIVE_INTERVAL
      provesMessages := false
      channelRx := .new 0
      channelTx := none
      decryptBuffer := 0
      attachedInterface := none
      events := []
      handled := [] }
    return link.handshake crates peer
  else .error .invalidArgument

/-- A new link has the address of its request and the size it signals, and has posted nothing. -/
theorem LocalLink.newFromRequest_ok {crates : Crates} {now : Instant} {secret : LinkSecret}
    {packet : Packet} {destination : SingleInputDestination} {link : LocalLink}
    (created : LocalLink.newFromRequest crates now secret packet destination = .ok link) :
    link.id = packet.linkId ∧ link.mtu < 2 ^ 21 ∧ link.status = .handshake ∧ link.events = [] := by
  -- The request must carry a whole peer key; what it may signal is 21 bits wide.
  unfold LocalLink.newFromRequest at created
  dsimp only at created
  split at created
  · obtain ⟨peer, -, rest⟩ := bind_eq_ok.mp created
    split at rest
    · cases rest
    · obtain rfl := Except.ok.inj rest
      exact ⟨rfl, mtuFromSignallingBytes_lt _, rfl, rfl⟩
  · cases created

namespace TransportHandler

/-- `strip_link_mtu_signalling`. -/
def stripLinkMtuSignalling (packet : Packet) : Packet :=
  { packet with data := packet.data.take (PUBLIC_KEY_LENGTH * 2) }

/-- `clamp_link_request_mtu`: the signalled size is at most what the interfaces carry. -/
def clampLinkRequestMtu (handler : TransportHandler) (packet : Packet) (inbound : AddressHash)
    (outbound : Option AddressHash) : Packet :=
  if packet.data.length ≠ PUBLIC_KEY_LENGTH * 2 + LINK_MTU_SIZE then packet
  else
    let keys := packet.data.take (PUBLIC_KEY_LENGTH * 2)
    let pathMtu := mtuFromSignallingBytes (packet.data.drop (PUBLIC_KEY_LENGTH * 2))
    let inboundMtu := handler.hwMtu inbound
    let outboundMtu := match outbound with
      | some iface => handler.hwMtu iface
      -- At the destination the inbound interface limits both directions.
      | none => inboundMtu
    match outboundMtu with
    | none => stripLinkMtuSignalling packet
    | some mtu =>
      let clamped := min (min pathMtu (inboundMtu.getD pathMtu)) mtu
      if clamped < pathMtu then { packet with data := keys ++ linkSignallingBytes clamped } else packet

/-- The request as it is used: clamped where the node discovers sizes. -/
def requestFor (handler : TransportHandler) (packet : Packet) (inbound : AddressHash)
    (outbound : Option AddressHash) : Packet :=
  if handler.config.linkMtuDiscovery then handler.clampLinkRequestMtu packet inbound outbound
  else packet

/-- The new link of `handle_link_request_as_destination`, bound to where its request came from. -/
def acceptLinkRequest (crates : Crates) (secret : LinkSecret) (handler : TransportHandler)
    (now : Instant) (packet : Packet) (destination : SingleInputDestination) (iface : AddressHash) :
    TransportHandler × List TxMessage :=
  match LocalLink.newFromRequest crates now secret packet destination with
  | .error _ => (handler, [])
  | .ok link =>
    let bound := { link with
      attachedInterface := some iface
      provesMessages := handler.config.proveLinkMessages }
    let (proven, provePacket) := bound.prove
    -- The proof is prepared before the link's interface is recorded.
    let (message, handler) := handler.prepare now provePacket
    ({ handler with
        linkIfaces := handler.linkIfaces.insert proven.id iface
        inLinks := handler.inLinks.insert proven.id proven }, [message])

/-- `handle_link_request_as_destination`. -/
def handleLinkRequestAsDestination (crates : Crates) (secret : LinkSecret)
    (handler : TransportHandler) (now : Instant) (packet : Packet)
    (destination : SingleInputDestination) (iface : AddressHash) :
    TransportHandler × List TxMessage :=
  let packet := handler.requestFor packet iface none
  if destination.desc.addressHash = packet.destination ∧ packet.header.packetType = .linkRequest ∧
      destination.acceptLinkRequests then
    match handler.inLinks.lookup packet.linkId with
    | some existing =>
      if existing.status ≠ .closed then
        let (proven, provePacket) := existing.prove
        let (message, handler) := handler.prepare now provePacket
        ({ handler with
            inLinks := handler.inLinks.insert packet.linkId (proven.markActivity now) }, [message])
      else handler.acceptLinkRequest crates secret now packet destination iface
    | none => handler.acceptLinkRequest crates secret now packet destination iface
  else (handler, [])

/-- The header of `handle_link_request_as_intermediate` for the next hop. -/
def restamp (packet : Packet) (remainingHops : UInt8) (nextHopTransport : AddressHash) : Packet :=
  if remainingHops > 0 then
    { packet with
      header := { packet.header with headerType := .type2, propagationType := .transport }
      transport := some nextHopTransport }
  else
    { packet with
      header := { packet.header with headerType := .type1, propagationType := .broadcast }
      transport := none }

/-- `handle_link_request_as_intermediate`. -/
def handleLinkRequestAsIntermediate (handler : TransportHandler) (now : Instant)
    (receivedFrom nextHopIface nextHopTransport : AddressHash) (remainingHops : UInt8)
    (packet : Packet) : TransportHandler × List TxMessage :=
  if packet.header.hops > PATHFINDER_M then (handler, [])
  else match handler.linkTable.add now packet packet.destination receivedFrom nextHopIface
      remainingHops with
    | (.loop, table) => ({ handler with linkTable := table }, [])
    | (_, table) =>
      let handler := { handler with linkTable := table }
      let forwarded := handler.requestFor packet receivedFrom (some nextHopIface)
      handler.sendToNextHop now (restamp forwarded remainingHops nextHopTransport) nextHopIface

/-- `handle_link_request`. -/
def handleLinkRequest (crates : Crates) (secret : LinkSecret) (handler : TransportHandler)
    (now : Instant) (packet : Packet) (iface : AddressHash) : TransportHandler × List TxMessage :=
  match handler.singleInDestinations.lookup packet.destination with
  | some destination =>
    handler.handleLinkRequestAsDestination crates secret now packet destination iface
  | none =>
    match handler.pathTable.nextHopRoute packet.destination with
    | some (nextHop, nextIface, pathHops) =>
      -- `saturating_sub`.
      let remainingHops := if pathHops = 0 then 0 else pathHops - 1
      handler.handleLinkRequestAsIntermediate now iface nextIface nextHop remainingHops packet
    | none => (handler, [])

end TransportHandler

end Reticulum
