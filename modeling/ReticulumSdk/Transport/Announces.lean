import ReticulumSdk.Transport.AnnounceLimits
import ReticulumSdk.Transport.AnnounceTable
import ReticulumSdk.Transport.Blackhole
import ReticulumSdk.Transport.PathRequests
import ReticulumSdk.Transport.PathTable

/-! A node that hears announces and path requests: what it keeps of them, and what it sends. -/

namespace Reticulum

/-- `PATH_REQUEST_GRACE`. -/
def PATH_REQUEST_GRACE : Duration := 400 * (nanosPerSec / 1000)

/-- `PATH_REQUEST_RG`. -/
def PATH_REQUEST_RG : Duration := 1500 * (nanosPerSec / 1000)

/-- `InterfaceMode`. -/
inductive InterfaceMode where
  | full
  | pointToPoint
  | accessPoint
  | roaming
  | boundary
  | gateway
  | «internal»
  deriving DecidableEq

/-- `InterfaceMode::DISCOVER_PATHS_FOR`. -/
def InterfaceMode.DISCOVER_PATHS_FOR : List InterfaceMode := [.accessPoint, .gateway, .roaming, .internal]

/-- `InterfaceMode::BOUNDARY_SEARCH_MODES`. -/
def InterfaceMode.BOUNDARY_SEARCH_MODES : List InterfaceMode := [.boundary, .gateway]

/-- What the `iface_manager` answers while a packet is handled. -/
structure IfaceManager where
  ingressRecordAnnounce : AddressHash → Bool
  ingressRecordPr : AddressHash → Bool
  egressRecordPr : AddressHash → Bool
  interfaceGravity : AddressHash → Int
  interfaceBitrate : AddressHash → Option Float
  pathExpiryForIface : AddressHash → Duration
  interfaceMode : AddressHash → InterfaceMode
  recursivePrsForIface : AddressHash → Bool
  activeInterfaceAddresses : List AddressHash
  rpcInstanceClients : List AddressHash

namespace IfaceManager

/-- `is_rpc_instance_client`. -/
def isRpcInstanceClient (ifaces : IfaceManager) (address : AddressHash) : Bool :=
  address ∈ ifaces.rpcInstanceClients

/-- `rpc_instance_clients_except`. -/
def rpcInstanceClientsExcept (ifaces : IfaceManager) (address : AddressHash) : List AddressHash :=
  ifaces.rpcInstanceClients.filter (· ≠ address)

end IfaceManager

/-- `AnnounceEvent`. -/
structure AnnounceEvent where
  destination : SingleOutputDestination
  hops : UInt8
  radio : Radio
  appData : Bytes
  deriving DecidableEq

/-- An announce that arrives at a node, with what its handling reads from outside. -/
structure AnnounceArrival where
  packet : Packet
  announces : packet.header.packetType = .announce
  iface : AddressHash
  radio : Radio
  ifaces : IfaceManager
  now : Instant
  /-- The clock when the path table is written, which is read once more. -/
  later : Instant
  random : UInt64
  /-- The random hash and the time a path response of the node's own is made of. -/
  randomHash : Hash
  timestampSecs : UInt64

/-- The arrival as it is handled, one hop further. -/
def AnnounceArrival.received (arrival : AnnounceArrival) : AnnounceArrival :=
  { arrival with packet := arrival.packet.received, announces := arrival.announces }

/-- What the interface of an arrival tells the path table. -/
def AnnounceArrival.route (arrival : AnnounceArrival) : AnnounceRoute where
  transportId := arrival.packet.transport
  iface := arrival.iface
  pathExpiry := arrival.ifaces.pathExpiryForIface arrival.iface
  gravity := arrival.ifaces.interfaceGravity arrival.iface
  bitrate := arrival.ifaces.interfaceBitrate arrival.iface

/-- `SingleOutputDestination::desc`. -/
def SingleOutputDestination.desc (destination : SingleOutputDestination) : DestinationDesc :=
  ⟨destination.identity, destination.addressHash⟩

/--
`TransportHandler` with what only announces and path requests read and write. The handler sees the
routes of the whole path table, and the descriptions of the destinations.
-/
structure AnnounceNode (agreement : KeyAgreement) where
  handler : TransportHandler
  retransmit : Bool
  pathTable : AnnouncedPaths
  routed : handler.pathTable = pathTable.routes
  singleInDestinations : Table AddressHash (LocalDestination agreement)
  owned : handler.singleInDestinations =
    singleInDestinations.mapValues fun _ destination => destination.toSingleInputDestination
  singleOutDestinations : Table AddressHash SingleOutputDestination
  described : handler.singleOutDestinations =
    singleOutDestinations.mapValues fun _ destination => destination.desc
  -- A destination that was not seen for some time is forgotten.
  singleOutLastSeen : Table AddressHash Instant
  announceTable : AnnounceTable
  announceLimits : AnnounceLimits
  announcesRateLimited : Nat
  blackholeTable : BlackholeTable
  pathRequests : PathRequests
  /-- Every event ever sent on `announce_tx`. -/
  announceTx : List AnnounceEvent

namespace AnnounceNode

variable {agreement : KeyAgreement}

/-- A node that has heard nothing yet. -/
def new (agreement : KeyAgreement) (config : TransportConfig) (retransmit rerouteEager : Bool)
    (transportId : Option AddressHash) (now : Instant) : AnnounceNode agreement where
  handler := .new config
  retransmit := retransmit
  pathTable := .new rerouteEager
  routed := rfl
  singleInDestinations := ∅
  owned := rfl
  singleOutDestinations := ∅
  described := rfl
  singleOutLastSeen := ∅
  announceTable := .new now
  announceLimits := ⟨∅⟩
  announcesRateLimited := 0
  blackholeTable := ⟨∅, now⟩
  pathRequests := .new transportId
  announceTx := []

/-- `has_destination`. -/
def hasDestination (node : AnnounceNode agreement) (address : AddressHash) : Bool :=
  address ∈ node.singleInDestinations

/-- Whether the announce would update its path when it is first asked. -/
def wouldUpdate (node : AnnounceNode agreement) (arrival : AnnounceArrival) : Bool :=
  node.pathTable.wouldUpdatePath arrival.now arrival.packet arrival.route.gravity arrival.route.bitrate

/--
The first part of `handle_announce`: what the announce tells, unless it is dropped, and the limits as
the check leaves them.
-/
def admitAnnounce (curves : Curves) (node : AnnounceNode agreement) (arrival : AnnounceArrival) :
    Option (SingleOutputDestination × Bytes) × AnnounceNode agreement :=
  let packet := arrival.packet
  -- The node's own destinations are not announced to itself.
  if node.hasDestination packet.destination then (none, node)
  else match DestinationAnnounce.validate curves packet with
    | .error _ => (none, node)
    | .ok (destination, appData) =>
      if destination.identity.addressHash ∈ node.blackholeTable.entries then (none, node)
      -- During a burst only known destinations may announce themselves.
      else if packet.context ≠ .pathResponse ∧ arrival.ifaces.ingressRecordAnnounce arrival.iface ∧
          (node.pathTable.get packet.destination).isNone then (none, node)
      -- The rate is counted for announces that would change the path.
      else if packet.context ≠ .pathResponse ∧ node.wouldUpdate arrival then
        match node.announceLimits.check arrival.now packet.destination with
        | (some _, limits) => (none, { node with
            announceLimits := limits
            announcesRateLimited := node.announcesRateLimited + 1 })
        | (none, limits) => (some (destination, appData), { node with announceLimits := limits })
      else (some (destination, appData), node)

/-- The destination of a validated announce was seen, and is known if it was not. -/
def remember (node : AnnounceNode agreement) (now : Instant) (address : AddressHash)
    (destination : SingleOutputDestination) : AnnounceNode agreement :=
  -- What is known of a destination is never replaced.
  let singleOutDestinations := if address ∈ node.singleOutDestinations then node.singleOutDestinations
    else node.singleOutDestinations.insert address destination
  { node with
    singleOutLastSeen := node.singleOutLastSeen.insert address now
    singleOutDestinations := singleOutDestinations
    handler := { node.handler with
      singleOutDestinations := singleOutDestinations.mapValues fun _ destination => destination.desc }
    described := rfl
    routed := node.routed
    owned := node.owned }

/-- The announce is the echo of one that is queued, or is queued itself. -/
def queue (profile : Profile) (node : AnnounceNode agreement) (arrival : AnnounceArrival)
    (wouldUpdate : Bool) : Outcome (AnnounceNode agreement) :=
  let packet := arrival.packet
  -- An announce that came through a transport may be what this node sent itself.
  if node.retransmit ∧ packet.transport.isSome ∧ node.announceTable.containsKey packet.destination then do
    let (_, table) ← node.announceTable.echoReceived profile arrival.now packet.destination
      packet.header.hops
    return { node with announceTable := table }
  else if packet.context ≠ .pathResponse ∧ wouldUpdate then
    if node.retransmit ∨ arrival.ifaces.isRpcInstanceClient arrival.iface then
      let table := node.announceTable.add arrival.now arrival.random packet packet.destination
        arrival.iface
      return { node with announceTable := table }
    else return node
  else return node

/-- A change of the path table, which routing follows. -/
def withPaths (node : AnnounceNode agreement) (paths : AnnouncedPaths) : AnnounceNode agreement :=
  { node with
    pathTable := paths
    handler := { node.handler with pathTable := paths.routes }
    routed := rfl
    owned := node.owned
    described := node.described }

/-- The path of an announce is installed where it is better than the one there is. -/
def updatePath (node : AnnounceNode agreement) (arrival : AnnounceArrival) :
    Bool × AnnounceNode agreement :=
  let (pathUpdated, pathTable) :=
    node.pathTable.handleAnnounce arrival.later arrival.packet arrival.route
  (pathUpdated, { node with
    pathTable := pathTable
    handler := { node.handler with pathTable := pathTable.routes }
    routed := rfl
    owned := node.owned
    described := node.described })

/-- A discovery that waits for the announce is answered with it. -/
def answerDiscovery (node : AnnounceNode agreement) (arrival : AnnounceArrival) :
    List TxMessage × AnnounceNode agreement :=
  let packet := arrival.packet
  let (waiting, pathRequests) := node.pathRequests.takeDiscovery arrival.later packet.destination
  let answer := waiting.map fun responseIface => {
    txType := .direct responseIface
    packet := relayedAnnounce packet packet.destination node.handler.config.identity
      packet.header.hops .pathResponse }
  (answer.toList, { node with pathRequests := pathRequests })

/-- Applications hear of an announce. -/
def notify (node : AnnounceNode agreement) (arrival : AnnounceArrival)
    (destination : SingleOutputDestination) (appData : Bytes) : AnnounceNode agreement :=
  { node with announceTx := node.announceTx ++
      [⟨destination, arrival.packet.header.hops, arrival.radio, appData⟩] }

/-- `handle_announce`. -/
def handleAnnounce (profile : Profile) (curves : Curves) (node : AnnounceNode agreement)
    (arrival : AnnounceArrival) : Outcome (List TxMessage × AnnounceNode agreement) :=
  -- The path table is asked before anything changes, and written at the end.
  let wouldUpdate := node.wouldUpdate arrival
  match node.admitAnnounce curves arrival with
  | (none, node) => .ok ([], node)
  | (some (destination, appData), node) => do
    let node := node.remember arrival.now arrival.packet.destination destination
    let node ← node.queue profile arrival wouldUpdate
    let (pathUpdated, node) := node.updatePath arrival
    let (pending, node) := node.answerDiscovery arrival
    return (pending, if pathUpdated then node.notify arrival destination appData else node)

/-- `forward_via_non_hot_ifaces`. -/
def forwardViaNonHotIfaces (ifaces : IfaceManager) (packet : Packet) (onIface : Option AddressHash)
    (searchModeFilter : Option (List InterfaceMode)) : List TxMessage :=
  ifaces.activeInterfaceAddresses.filterMap fun address =>
    -- A request is not sent back where it came from.
    if onIface = some address then none
    else if searchModeFilter.any fun modes => ifaces.interfaceMode address ∉ modes then none
    else if ifaces.egressRecordPr address then none
    else some ⟨.direct address, packet⟩

/-- Whether the interface of a request has paths searched for, and over which modes. -/
def searchesFor (ifaces : IfaceManager) (iface : AddressHash) : Bool × Option (List InterfaceMode) :=
  let mode := ifaces.interfaceMode iface
  if ifaces.recursivePrsForIface iface then (true, none)
  else if mode ∈ InterfaceMode.DISCOVER_PATHS_FOR then (true, none)
  else if mode = .boundary then (true, some InterfaceMode.BOUNDARY_SEARCH_MODES)
  else (false, none)

/-- The last part of `handle_path_request`: the request is passed on. -/
def searchPath (node : AnnounceNode agreement) (arrival : AnnounceArrival) (request : PathRequest) :
    List TxMessage × AnnounceNode agreement :=
  let (shouldSearch, searchModeFilter) := searchesFor arrival.ifaces arrival.iface
  if shouldSearch ∧ ¬ arrival.ifaces.ingressRecordPr arrival.iface then
    let (generated, pathRequests) := node.pathRequests.generateRecursive arrival.now
      request.destination arrival.iface request.tagBytes
    let searching := { node with pathRequests := pathRequests }
    match generated with
    | none => ([], searching)
    | some packet =>
      let sent := forwardViaNonHotIfaces arrival.ifaces packet (some arrival.iface) searchModeFilter
      -- Where no interface takes the request, it is broadcast.
      (if sent.isEmpty then [⟨.broadcast (some arrival.iface), packet⟩] else sent, searching)
  else ([], node)

/-- `handle_path_request`. -/
def handlePathRequest (node : AnnounceNode agreement) (arrival : AnnounceArrival) :
    List TxMessage × AnnounceNode agreement :=
  let (decoded, pathRequests) := node.pathRequests.decode arrival.now arrival.packet.data
  let node := { node with pathRequests := pathRequests }
  match decoded with
  | none => ([], node)
  | some request =>
    -- The node answers for its own destinations at once.
    match node.singleInDestinations.lookup request.destination with
    | some destination =>
      ([⟨.direct arrival.iface, destination.pathResponse arrival.randomHash arrival.timestampSecs none⟩],
        node)
    | none =>
      if node.retransmit then
        match node.pathTable.get request.destination with
        | none => node.searchPath arrival request
        | some path =>
          -- The path leads back to the transport that asks.
          if request.requestingTransport = some path.receivedFrom then ([], node)
          else
            let grace := if arrival.ifaces.interfaceMode arrival.iface = .roaming then
              PATH_REQUEST_GRACE + PATH_REQUEST_RG else PATH_REQUEST_GRACE
            let (scheduled, announceTable) := node.announceTable.addResponse arrival.now arrival.random
              request.destination arrival.iface path.hops grace
            -- The response waits in the announce table for its timeout.
            if scheduled then ([], { node with announceTable := announceTable })
            else match path.announce with
              | some announce => ([⟨.direct arrival.iface, relayedAnnounce announce
                  request.destination node.handler.config.identity path.hops .pathResponse⟩], node)
              | none => node.searchPath arrival request
      else ([], node)

/-- The announce as it is forwarded to the clients that share the node's instance. -/
def forwardToClients (node : AnnounceNode agreement) (arrival : AnnounceArrival) : List TxMessage :=
  (arrival.ifaces.rpcInstanceClientsExcept arrival.iface).map fun localIface => {
    txType := .direct localIface
    packet := relayedAnnounce arrival.packet arrival.packet.destination node.handler.config.identity
      arrival.packet.header.hops .none }

/-- What the receive loop sends: what handlers of the packet queue, and what is forwarded to clients. -/
structure Outbound where
  handled : List TxMessage
  forwarded : List TxMessage
  deriving DecidableEq

/-- `filter_duplicate_packets`. -/
def filterDuplicatePackets (node : AnnounceNode agreement) (now : Instant) (packet : Packet) :
    Bool × AnnounceNode agreement :=
  let filtered := node.handler.filterDuplicatePackets now packet
  (filtered.1, { node with
    handler := filtered.2
    routed := node.routed
    owned := node.owned
    described := node.described })

/--
The body of the receive loop of `manage_transport` for an announce that is already one hop further:
what is addressed to the node's path request destination is taken for a path request.
-/
def receive (profile : Profile) (curves : Curves) (node : AnnounceNode agreement)
    (arrival : AnnounceArrival) : Outcome (Outbound × AnnounceNode agreement) :=
  if arrival.packet.destination = fixedDestPathRequests then
    let (pending, node) := node.handlePathRequest arrival
    .ok (⟨pending, []⟩, node)
  else if ¬ node.handler.acceptsTransportPacket arrival.packet then .ok (⟨[], []⟩, node)
  else
    -- The packet is forwarded to the clients by its type, whatever the handler made of it.
    let (passed, node) := node.filterDuplicatePackets arrival.now arrival.packet
    if passed then do
      let (pending, node) ← node.handleAnnounce profile curves arrival
      return (⟨pending, node.forwardToClients arrival⟩, node)
    else .ok (⟨[], []⟩, node)

end AnnounceNode

end Reticulum
