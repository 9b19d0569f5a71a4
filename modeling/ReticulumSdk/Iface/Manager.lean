import ReticulumSdk.Base.MsgpackFormat
import ReticulumSdk.Base.Positions
import ReticulumSdk.Iface.AnnouncePacer
import ReticulumSdk.Iface.Ifac
import ReticulumSdk.Iface.IngressBurst
import ReticulumSdk.Transport.Announces

/-! The interfaces of a node: how they are registered and found, what goes out over which, and when they go. -/

namespace Reticulum

/-- `DEFAULT_INTERFACE_TX_QUEUE_CAP`. -/
def DEFAULT_INTERFACE_TX_QUEUE_CAP : Nat := 16384

/-- What an `Interface` tells when it is registered, and where its shared values stand. -/
structure Interface where
  hwMtu : Nat
  bitrate : Option Float
  bitrateSource : Option Float
  interfaceMode : InterfaceMode
  gravity : Int
  announceCap : Float
  announcesFromInternal : Bool
  recursivePrs : Bool
  autoconfigureMtu : Bool
  fixedMtu : Bool
  hwMtuSource : Option Nat

/-- `configured_bitrate`. -/
def configuredBitrate (bitrate : Float) : Option Float :=
  if bitrate.isFinite ∧ bitrate > 0.0 then some bitrate else none

/-- `packet_wire_len`. -/
def packetWireLen (packet : Packet) : Nat :=
  2 + (if packet.header.headerType = .type2 then ADDRESS_HASH_SIZE else 0) + ADDRESS_HASH_SIZE + 1 +
    packet.data.length

/-- `AnnouncePacer::should_pace`. -/
def AnnouncePacer.shouldPace (message : TxMessage) : Bool :=
  message.packet.header.packetType = .announce ∧ message.packet.header.hops > 0

namespace TxMessageType

/-- The interfaces that a message is for. -/
def goesTo (address : AddressHash) : TxMessageType → Bool
  | .broadcast (some excluded) => excluded ≠ address
  | .broadcast none => true
  | .broadcastFrom _ => true
  | .direct iface => iface = address

/-- The interface that a broadcast came in on. -/
def origin : TxMessageType → Option AddressHash
  | .broadcast excluded => excluded
  | .broadcastFrom origin => some origin
  | .direct _ => none

end TxMessageType

/-- `LocalInterface`, with its queue, its `stop` and the state of its pacer in one. -/
structure LocalInterface where
  address : AddressHash
  parentInterface : Option AddressHash
  queue : PacerSystem
  txCap : Nat
  announcePacer : Option AnnouncePacer
  /-- The reading of the channel load that the pacer shares. -/
  channelLoad : Float
  rpcInstanceClient : Bool
  hwMtu : Option Nat
  ifacConfig : Option IfacConfig
  bitrate : Option Float
  bitrateSource : Option Float
  mode : InterfaceMode
  gravity : Int
  announcesFromInternal : Bool
  recursivePrs : Bool
  lastDataSend : Instant
  packetsTx : Nat
  bytesTx : Nat
  lastPacingIntervalUs : Nat
  ingressCreatedAt : Instant
  /-- `ia_freq_deque` and what belongs to it. -/
  announces : IngressBurst
  /-- `ip_freq_deque` and what belongs to it. -/
  prs : IngressBurst
  opFreqDeque : List Instant
  «permanent» : Bool
  lastActivity : Instant

namespace LocalInterface

/-- Its `stop` is cancelled. -/
def stopped (iface : LocalInterface) : Bool := iface.queue.stopped

/-- `LocalInterface::effective_bitrate`. -/
def effectiveBitrate (iface : LocalInterface) : Option Float :=
  match iface.bitrateSource with
  | some source => configuredBitrate source
  | none => iface.bitrate

/-- The limits for announces. -/
def announceLimits (iface : LocalInterface) : IngressLimits :=
  ⟨iface.ingressCreatedAt, INGRESS_BURST_FREQ_NEW, INGRESS_BURST_FREQ⟩

/-- The limits for path requests. -/
def prLimits (iface : LocalInterface) : IngressLimits :=
  ⟨iface.ingressCreatedAt, INGRESS_PR_BURST_FREQ_NEW, INGRESS_PR_BURST_FREQ⟩

/-- What `ingress_evaluate_all` does to an interface. -/
def evaluateIngress (now later : Instant) (iface : LocalInterface) : LocalInterface :=
  if iface.stopped ∨ iface.effectiveBitrate.isNone then iface
  else { iface with
    announces := iface.announces.ingressEvaluateImpl iface.announceLimits now later
    prs := iface.prs.ingressEvaluateImpl iface.prLimits now later }

/-- What `egress_evaluate_all` does to an interface: times of more than ten seconds ago go. -/
def evaluateEgress (now : Instant) (iface : LocalInterface) : LocalInterface :=
  if iface.stopped then iface
  else { iface with opFreqDeque := iface.opFreqDeque.dropWhile fun time =>
    Duration.asSecsF64 (now.durationSince time) > 10.0 }

/-- The filter of `send_flush` for announces, by the mode of the interface that one came from. -/
def blocksAnnounce (iface : LocalInterface) (isLocal : Bool) (sourceMode : Option InterfaceMode) : Bool :=
  (¬ isLocal ∧ ¬ iface.announcesFromInternal ∧ sourceMode = some .internal) ∨
    iface.mode = .accessPoint ∨
    (¬ isLocal ∧ iface.mode = .internal ∧ sourceMode = some .boundary) ∨
    (iface.mode = .roaming ∧ ¬ isLocal ∧ (sourceMode = some .roaming ∨ sourceMode = some .boundary)) ∨
    (iface.mode = .boundary ∧ ¬ isLocal ∧ sourceMode = some .roaming)

/-- The filter of `send_flush` behind it, which announces pass as well. -/
def blocksBroadcast (iface : LocalInterface) (txType : TxMessageType)
    (sourceMode : Option InterfaceMode) : Bool :=
  (iface.mode = .accessPoint ∧ txType.origin.any fun origin => origin ≠ iface.address) ∨
    (iface.mode = .internal ∧ sourceMode = some .boundary)

/-- What `send_flush` lets out over an interface. -/
def lets (iface : LocalInterface) (message : TxMessage) (isLocal : Bool)
    (sourceMode : Option InterfaceMode) : Bool :=
  message.txType.goesTo iface.address ∧ ¬ iface.stopped ∧
    -- A path response was asked for, and crosses all modes.
    (message.packet.context = .pathResponse ∨
      (¬ (message.packet.header.packetType = .announce ∧ iface.blocksAnnounce isLocal sourceMode) ∧
        ¬ iface.blocksBroadcast message.txType sourceMode))

/-- A packet with the access code of an interface, if it has one. -/
def attach (iface : LocalInterface) (packet : Packet) : Except RnsError Packet :=
  match iface.ifacConfig with
  | some config => config.attach packet
  | none => .ok packet

/-- A message is handed to the pacer or to the queue, which fails where the wait time is no duration. -/
def enqueue (iface : LocalInterface) (paced : Bool) (message : TxMessage) : Outcome LocalInterface :=
  match iface.announcePacer with
  | some pacer =>
    if paced then do
      let _ ← pacer.waitTime (some iface.channelLoad) message.packet
      return { iface with queue := iface.queue.send pacer (some iface.channelLoad) message }
    else return { iface with queue := iface.queue.sendOrDrop iface.txCap message }
  | none => return { iface with queue := iface.queue.sendOrDrop iface.txCap message }

/-- What is counted of a message that was handed over. -/
def count (iface : LocalInterface) (now : Instant) (packet : Packet) : LocalInterface :=
  { iface with
    packetsTx := (iface.packetsTx + 1) % 2 ^ 64
    bytesTx := (iface.bytesTx + packetWireLen packet) % 2 ^ 64
    lastActivity := now }

/-- The rest of a round of `send_flush`, for an interface that lets a message out. -/
def flush (iface : LocalInterface) (now : Instant) (message : TxMessage) : Outcome LocalInterface :=
  match iface.attach message.packet with
  -- A packet that cannot be signed is not sent.
  | .error _ => .ok iface
  | .ok packet => do
    let iface ← iface.enqueue (AnnouncePacer.shouldPace message) { message with packet := packet }
    return iface.count now packet

/-- The least time between data packets at a bitrate, twice the time that one takes. -/
def minInterval (bitrate : Float) (packet : Packet) : Outcome Duration :=
  let txTime := (UInt64.ofNat (packetWireLen packet)).toFloat * 8.0 / bitrate
  Duration.fromSecsF64 (txTime * 2.0)

/-- A round of `send_pacing_delay`, for an interface that a data packet is for. -/
def pace (iface : LocalInterface) (now : Instant) (packet : Packet) : Outcome (Duration × LocalInterface) :=
  match iface.effectiveBitrate with
  | none => .ok (0, iface)
  | some bitrate =>
    if bitrate ≤ 0.0 then .ok (0, iface)
    else do
      let minInterval ← minInterval bitrate packet
      let iface := { iface with lastPacingIntervalUs := minInterval / 1000 }
      let deadline ← iface.lastDataSend.add minInterval
      if now ≥ deadline then return (0, { iface with lastDataSend := now })
      else return (deadline - now, { iface with lastDataSend := deadline })

end LocalInterface

/-- `InterfaceManager`, with a clock of its own. -/
structure InterfaceManager where
  clock : Instant
  counter : Nat
  ifaces : List LocalInterface
  ifaceIndex : Table AddressHash Nat
  localDestinations : List AddressHash

namespace InterfaceManager

/-- `InterfaceManager::new`. -/
def new (now : Instant) : InterfaceManager where
  clock := now
  counter := 0
  ifaces := []
  ifaceIndex := ∅
  localDestinations := []

/-- The address of the next channel: the digest of the counter, its lowest byte first. -/
def nextAddress (manager : InterfaceManager) : AddressHash :=
  .newFromHash (.generate (Msgpack.toBe 8 (manager.counter + 1)).reverse)

/-- What `new_channel_with_pacer` is given beside the interface. -/
structure ChannelOptions where
  txCap : Nat
  rpcInstanceClient : Bool
  ifacConfig : Option IfacConfig
  «permanent» : Bool

/-- An interface that has not done anything yet. -/
def freshInterface (manager : InterfaceManager) (options : ChannelOptions) (inner : Interface) :
    LocalInterface where
  address := manager.nextAddress
  parentInterface := none
  queue := .new manager.clock
  txCap := options.txCap
  announcePacer := (inner.bitrate.filter fun bitrate => bitrate > 0.0 ∧ inner.announceCap > 0.0).map
    fun bitrate => ⟨bitrate, inner.announceCap⟩
  channelLoad := 0.0
  rpcInstanceClient := options.rpcInstanceClient
  hwMtu := if inner.autoconfigureMtu ∨ inner.fixedMtu then some (inner.hwMtuSource.getD inner.hwMtu) else none
  ifacConfig := options.ifacConfig
  bitrate := configuredBitrate (inner.bitrate.getD 0.0)
  bitrateSource := inner.bitrateSource
  mode := inner.interfaceMode
  gravity := inner.gravity
  announcesFromInternal := inner.announcesFromInternal
  recursivePrs := inner.recursivePrs
  lastDataSend := manager.clock
  packetsTx := 0
  bytesTx := 0
  lastPacingIntervalUs := 0
  ingressCreatedAt := manager.clock
  announces := .new manager.clock
  prs := .new manager.clock
  opFreqDeque := []
  «permanent» := options.permanent
  lastActivity := manager.clock

/-- `new_channel_with_pacer`, with what `new_context_with_options` reads off the interface. -/
def newChannelWithPacer (manager : InterfaceManager) (options : ChannelOptions) (inner : Interface) :
    InterfaceManager :=
  let iface := manager.freshInterface options inner
  { manager with
    counter := manager.counter + 1
    ifaces := manager.ifaces ++ [iface]
    ifaceIndex := manager.ifaceIndex.insert iface.address manager.ifaces.length }

/-- The interface of a plain `new_channel`. -/
def plainInterface : Interface where
  hwMtu := 0
  bitrate := none
  bitrateSource := none
  interfaceMode := .full
  gravity := 0
  announceCap := 0.0
  announcesFromInternal := true
  recursivePrs := false
  autoconfigureMtu := false
  fixedMtu := false
  hwMtuSource := none

/-- `new_channel`. -/
def newChannel (manager : InterfaceManager) (txCap : Nat) : InterfaceManager :=
  manager.newChannelWithPacer ⟨txCap, false, none, true⟩ plainInterface

/-- `spawn`. -/
def spawn (manager : InterfaceManager) (inner : Interface) : InterfaceManager :=
  manager.newChannelWithPacer ⟨DEFAULT_INTERFACE_TX_QUEUE_CAP, false, none, true⟩ inner

/-- `spawn_with_ifac_config`, for the connections of a server. -/
def spawnWithIfacConfig (manager : InterfaceManager) (inner : Interface) (config : Option IfacConfig) :
    InterfaceManager :=
  manager.newChannelWithPacer ⟨DEFAULT_INTERFACE_TX_QUEUE_CAP, false, config, false⟩ inner

/-- `spawn_rpc_instance_client`. -/
def spawnRpcInstanceClient (manager : InterfaceManager) (inner : Interface) : InterfaceManager :=
  manager.newChannelWithPacer ⟨DEFAULT_INTERFACE_TX_QUEUE_CAP, true, none, false⟩ inner

/-- The interfaces that stay, and the index made anew. -/
def retain (manager : InterfaceManager) (stays : LocalInterface → Bool) : InterfaceManager :=
  let ifaces := manager.ifaces.filter stays
  { manager with ifaces := ifaces, ifaceIndex := Positions.rebuild LocalInterface.address ifaces }

/-- `cleanup`. -/
def cleanup (manager : InterfaceManager) : InterfaceManager := manager.retain fun iface => ¬ iface.stopped

/-- An interface that `cleanup_inactive` leaves. -/
def survives (now : Instant) (grace : Duration) (iface : LocalInterface) : Bool :=
  iface.permanent ∨ iface.stopped ∨ now.durationSince iface.lastActivity < grace

/-- `cleanup_inactive`: how many interfaces were reclaimed. -/
def cleanupInactive (manager : InterfaceManager) (grace : Duration) : Nat × InterfaceManager :=
  let left := manager.retain (survives manager.clock grace)
  (manager.ifaces.length - left.ifaces.length, left)

/-- `add_local_destination`. -/
def addLocalDestination (manager : InterfaceManager) (hash : AddressHash) : InterfaceManager :=
  { manager with localDestinations := manager.localDestinations.insert hash }

/-- `remove_local_destination`. -/
def removeLocalDestination (manager : InterfaceManager) (hash : AddressHash) : InterfaceManager :=
  { manager with localDestinations := manager.localDestinations.filter (· ≠ hash) }

/-- `is_local_destination`. -/
def isLocalDestination (manager : InterfaceManager) (hash : AddressHash) : Bool :=
  hash ∈ manager.localDestinations

/-- The interface in a place of the index, which has to be there. -/
def ifaceAt (manager : InterfaceManager) (idx : Nat) : Outcome LocalInterface :=
  match manager.ifaces[idx]? with
  | some iface => .ok iface
  | none => .error .indexOutOfBounds

/-- `iface_by_address`. -/
def ifaceByAddress (manager : InterfaceManager) (address : AddressHash) : Outcome (Option LocalInterface) :=
  match manager.ifaceIndex.lookup address with
  | none => return none
  | some idx => do
    let iface ← manager.ifaceAt idx
    return if iface.stopped then none else some iface

/-- The interface under an address is changed in its place. -/
def update (manager : InterfaceManager) (address : AddressHash) (change : LocalInterface → LocalInterface) :
    InterfaceManager :=
  match manager.ifaceIndex.lookup address with
  | none => manager
  | some idx => { manager with ifaces := manager.ifaces.modify idx change }

/-- `record_interface_activity`. -/
def recordInterfaceActivity (manager : InterfaceManager) (address : AddressHash) :
    Outcome InterfaceManager := do
  match ← manager.ifaceByAddress address with
  | none => return manager
  | some _ => return manager.update address fun iface => { iface with lastActivity := manager.clock }

/-- `ingress_record_announce`: whether the announce is dropped. -/
def ingressRecordAnnounce (manager : InterfaceManager) (later : Instant) (address : AddressHash) :
    Outcome (Bool × InterfaceManager) := do
  match ← manager.ifaceByAddress address with
  | none => return (false, manager)
  | some iface =>
    if iface.effectiveBitrate.isNone then return (false, manager)
    else
      let (dropped, announces) :=
        iface.announces.ingressRecordImpl iface.announceLimits manager.clock later
      return (dropped, manager.update address fun iface => { iface with announces := announces })

/-- `ingress_record_pr`: whether the path request is dropped. -/
def ingressRecordPr (manager : InterfaceManager) (later : Instant) (address : AddressHash) :
    Outcome (Bool × InterfaceManager) := do
  match ← manager.ifaceByAddress address with
  | none => return (false, manager)
  | some iface =>
    if iface.effectiveBitrate.isNone then return (false, manager)
    else
      let (dropped, prs) := iface.prs.ingressRecordImpl iface.prLimits manager.clock later
      return (dropped, manager.update address fun iface => { iface with prs := prs })

/-- `ingress_evaluate_all`. -/
def ingressEvaluateAll (manager : InterfaceManager) (later : Instant) : InterfaceManager :=
  { manager with ifaces := manager.ifaces.map (LocalInterface.evaluateIngress manager.clock later) }

/-- `egress_record_pr`: whether path requests go out over the interface too often. -/
def egressRecordPr (manager : InterfaceManager) (address : AddressHash) : Outcome (Bool × InterfaceManager) := do
  match ← manager.ifaceByAddress address with
  | none => return (false, manager)
  | some iface =>
    let (freq, deque) := ingressFreq manager.clock (IngressBurst.push iface.opFreqDeque manager.clock)
    return (freq.getD 0.0 > EGRESS_PR_FREQ,
      manager.update address fun iface => { iface with opFreqDeque := deque })

/-- `egress_evaluate_all`. -/
def egressEvaluateAll (manager : InterfaceManager) : InterfaceManager :=
  { manager with ifaces := manager.ifaces.map (LocalInterface.evaluateEgress manager.clock) }

/-- `recursive_prs_for_iface`. -/
def recursivePrsForIface (manager : InterfaceManager) (address : AddressHash) : Outcome Bool := do
  return (← manager.ifaceByAddress address).any LocalInterface.recursivePrs

/-- `InterfaceManager::interface_mode`: an interface that is gone counts as a boundary. -/
def interfaceMode (manager : InterfaceManager) (address : AddressHash) : Outcome InterfaceMode := do
  return ((← manager.ifaceByAddress address).map LocalInterface.mode).getD .boundary

/-- `interface_gravity`. -/
def interfaceGravity (manager : InterfaceManager) (address : AddressHash) : Outcome Int := do
  return ((← manager.ifaceByAddress address).map LocalInterface.gravity).getD 0

/-- `interface_bitrate`. -/
def interfaceBitrate (manager : InterfaceManager) (address : AddressHash) : Outcome (Option Float) := do
  return (← manager.ifaceByAddress address) >>= LocalInterface.effectiveBitrate

/-- `InterfaceManager::hw_mtu`. -/
def hwMtu (manager : InterfaceManager) (address : AddressHash) : Outcome (Option Nat) := do
  return (← manager.ifaceByAddress address) >>= LocalInterface.hwMtu

/-- The path expiry of a mode, without the feature for embedded nodes. -/
def modeExpiry : InterfaceMode → Duration
  | .accessPoint => 60 * 60 * 24 * nanosPerSec
  | .roaming => 60 * 60 * 6 * nanosPerSec
  | _ => 60 * 60 * 24 * 7 * nanosPerSec

/-- `path_expiry_for_iface`. -/
def pathExpiryForIface (manager : InterfaceManager) (address : AddressHash) : Outcome Duration := do
  return modeExpiry (← manager.interfaceMode address)

/-- `should_discover_paths_for`. -/
def shouldDiscoverPathsFor (manager : InterfaceManager) (address : AddressHash) : Outcome Bool := do
  return (← manager.interfaceMode address) ∈ InterfaceMode.DISCOVER_PATHS_FOR

/-- `active_interface_addresses`. -/
def activeInterfaceAddresses (manager : InterfaceManager) : List AddressHash :=
  (manager.ifaces.filter fun iface => ¬ iface.stopped).map LocalInterface.address

/-- `rpc_instance_clients_except`. -/
def rpcInstanceClientsExcept (manager : InterfaceManager) (address : AddressHash) : List AddressHash :=
  (manager.ifaces.filter fun iface => iface.rpcInstanceClient ∧ ¬ iface.stopped ∧ iface.address ≠ address).map
    LocalInterface.address

/-- `is_rpc_instance_client`. -/
def isRpcInstanceClient (manager : InterfaceManager) (address : AddressHash) : Bool :=
  manager.ifaces.any fun iface => iface.address = address ∧ iface.rpcInstanceClient ∧ ¬ iface.stopped

/-- `set_ifac_config`. -/
def setIfacConfig (manager : InterfaceManager) (address : AddressHash) (config : Option IfacConfig) :
    Outcome InterfaceManager := do
  match manager.ifaceIndex.lookup address with
  | none => return manager
  | some idx =>
    let _ ← manager.ifaceAt idx
    return manager.update address fun iface => { iface with ifacConfig := config }

/-- `get_ifac_config`. -/
def getIfacConfig (manager : InterfaceManager) (address : AddressHash) : Outcome (Option IfacConfig) := do
  match manager.ifaceIndex.lookup address with
  | none => return none
  | some idx => return (← manager.ifaceAt idx).ifacConfig

/-- `set_parent_interface`. -/
def setParentInterface (manager : InterfaceManager) (address parent : AddressHash) :
    Outcome InterfaceManager := do
  match manager.ifaceIndex.lookup address with
  | none => return manager
  | some idx =>
    let _ ← manager.ifaceAt idx
    return manager.update address fun iface => { iface with parentInterface := some parent }

/-- `parent_interface_of`. -/
def parentInterfaceOf (manager : InterfaceManager) (address : AddressHash) :
    Outcome (Option AddressHash) := do
  match manager.ifaceIndex.lookup address with
  | none => return none
  | some idx => return (← manager.ifaceAt idx).parentInterface

/-- An interface that `send_pacing_delay` reads, for a message. -/
def paces (message : TxMessage) (iface : LocalInterface) : Bool :=
  message.txType.goesTo iface.address ∧ ¬ iface.stopped ∧ message.packet.header.packetType ≠ .announce

/-- The loop of `send_pacing_delay`: the longest wait, unless a round fails, and the interfaces. -/
def paceEach (now : Instant) (message : TxMessage) :
    List LocalInterface → Outcome Duration × List LocalInterface
  | [] => (.ok 0, [])
  | iface :: rest =>
    if paces message iface then
      match iface.pace now message.packet with
      | .error fault => (.error fault, iface :: rest)
      | .ok (wait, iface) =>
        let (others, rest) := paceEach now message rest
        (others.map (max wait), iface :: rest)
    else
      let (others, rest) := paceEach now message rest
      (others, iface :: rest)

/-- `send_pacing_delay`. -/
def sendPacingDelay (manager : InterfaceManager) (message : TxMessage) :
    Outcome Duration × InterfaceManager :=
  let (wait, ifaces) := paceEach manager.clock message manager.ifaces
  (wait, { manager with ifaces := ifaces })

/-- The loop of `send_flush`, which ends where a round fails. -/
def flushEach (now : Instant) (message : TxMessage) (isLocal : Bool) (sourceMode : Option InterfaceMode) :
    List LocalInterface → List LocalInterface
  | [] => []
  | iface :: rest =>
    if iface.lets message isLocal sourceMode then
      match iface.flush now message with
      | .error _ => iface :: rest
      | .ok flushed => flushed :: flushEach now message isLocal sourceMode rest
    else iface :: flushEach now message isLocal sourceMode rest

/-- The mode of the interface that a message came from. -/
def sourceMode (manager : InterfaceManager) (txType : TxMessageType) : Outcome (Option InterfaceMode) :=
  match txType.origin with
  | some origin => some <$> manager.interfaceMode origin
  | none => return none

/-- `send_flush`. -/
def sendFlush (manager : InterfaceManager) (message : TxMessage) : Outcome InterfaceManager := do
  let sourceMode ← manager.sourceMode message.txType
  let isLocal := manager.isLocalDestination message.packet.destination
  return { manager with ifaces := flushEach manager.clock message isLocal sourceMode manager.ifaces }

end InterfaceManager

end Reticulum
