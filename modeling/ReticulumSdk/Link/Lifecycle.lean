import ReticulumSdk.Link.Machine

/-! How a link is begun, aged, begun again and ended by its own node. -/

namespace Reticulum

/-- The random `PrivateIdentity` of a new link: its public half, and what its private half does. -/
structure LinkKeys where
  identity : Identity
  /-- `PrivateIdentity::sign`. -/
  sign : Bytes → Signature
  /-- `PrivateIdentity::derive_key`. -/
  deriveKey : PublicKey → Bytes → Bytes

/-- Key pairs for concrete runs. -/
def LinkKeys.sample : LinkKeys where
  identity := ⟨.filled 0, .filled 0⟩
  sign := Link.sampleSign
  deriveKey _ _ := List.replicate DERIVED_KEY_LENGTH 0

namespace LocalLink

/-- `Link::new`, whose peer is `Identity::default` until a proof names another. -/
def new (now : Instant) (keys : LinkKeys) (destination : DestinationDesc)
    (verifyDefault : Bytes → Signature → Bool) : LocalLink where
  id := .filled 0
  status := .pending
  mtu := RETICULUM_MTU
  rtt := 0
  sign := keys.sign
  verifyPeer := verifyDefault
  destination := destination
  identity := keys.identity
  deriveKey := keys.deriveKey
  derivedKey := List.replicate DERIVED_KEY_LENGTH 0
  requestTime := now
  establishmentDeadline := now + DEFAULT_ESTABLISHMENT_TIMEOUT
  nextRetryTime := now
  lastKeepalive := now
  keepalive := KEEPALIVE_INTERVAL
  provesMessages := false
  channelRx := .new 0
  channelTx := none
  decryptBuffer := 0
  attachedInterface := none
  events := []
  handled := []

/-- `Link::set_establishment_deadline`. -/
def setEstablishmentDeadline (link : LocalLink) (now : Instant) (timeout : Duration) : LocalLink :=
  { link with establishmentDeadline := now + timeout }

/-- The packet of `Link::request`: both public keys of the link and the size it asks for. -/
def requestPacket (link : LocalLink) (mtu : Nat) : Packet where
  header := { packetType := .linkRequest }
  destination := link.destination.addressHash
  transport := none
  context := .none
  data := link.identity.publicKey.bytes ++ link.identity.verifyingKey.bytes ++ linkSignallingBytes mtu

/-- `Link::request`, which leaves the anchor of the establishment alone. -/
def request (link : LocalLink) (now : Instant) (pathMtu : Option Nat) : LocalLink × Packet :=
  let mtu := pathMtu.getD RETICULUM_MTU
  let packet := link.requestPacket mtu
  ({ link with
      status := .pending
      id := packet.linkId
      mtu := mtu
      -- Only the cadence of the retries advances.
      nextRetryTime := now + LINK_REQUEST_RETRY_INTERVAL }, packet)

/-- `Link::stale`. -/
def stale (link : LocalLink) : LocalLink := { link with status := .stale }

/-- `Link::restart`, which anchors a new attempt. -/
def restart (link : LocalLink) (now : Instant) : LocalLink :=
  { link with
    status := .pending
    requestTime := now
    nextRetryTime := now
    establishmentDeadline := now + DEFAULT_ESTABLISHMENT_TIMEOUT }

/-- `Link::elapsed`. -/
def elapsed (link : LocalLink) (now : Instant) : Duration := now.durationSince link.requestTime

/-- `Link::request_retry_due`. -/
def requestRetryDue (link : LocalLink) (now : Instant) : Bool := now ≥ link.nextRetryTime

/-- `Link::establishment_expired`. -/
def establishmentExpired (link : LocalLink) (now : Instant) : Bool :=
  link.status = .pending ∧ now ≥ link.establishmentDeadline

/-- `Link::keepalive_due`. -/
def keepaliveDue (link : LocalLink) (now : Instant) : Bool :=
  now.durationSince link.requestTime ≥ link.keepalive ∧
    now.durationSince link.lastKeepalive ≥ link.keepalive

/-- `Link::mark_keepalive_sent`. -/
def markKeepaliveSent (link : LocalLink) (now : Instant) : LocalLink :=
  { link with lastKeepalive := now }

/-- `Link::data_packet`, with the key the link agreed on and the vector of this call. -/
def dataPacketWith (crates : Crates) (link : LocalLink) (iv : Iv) (data : Bytes) :
    Except RnsError Packet :=
  link.toLink.dataPacket ((Fernet.ofDerivedKey crates.suite link.derivedKey).cipher iv) data

/-- `Link::teardown`: the peer of a link that has one is told; if it cannot be, nothing is closed. -/
def teardown (crates : Crates) (link : LocalLink) (iv : Iv) :
    Except RnsError (Option Packet × LocalLink) :=
  if link.status ≠ .pending ∧ link.status ≠ .closed then do
    let packet ← link.dataPacketWith crates iv link.id.bytes
    return (some { packet with context := .linkClose }, link.close)
  else .ok (none, link.close)

end LocalLink

end Reticulum
