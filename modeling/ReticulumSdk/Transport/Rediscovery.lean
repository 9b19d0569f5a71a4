import ReticulumSdk.Transport.Announces
import ReticulumSdk.Transport.OwnLinks

/-! The sweep of the links with the paths it gives up, and the requests that look for them again. -/

namespace Reticulum

/-- `INGRESS_FREQ_SAMPLES`. -/
def INGRESS_FREQ_SAMPLES : Nat := 48

/-- `INGRESS_DEQUE_MIN_SAMPLE`. -/
def INGRESS_DEQUE_MIN_SAMPLE : Nat := 2

/-- `INGRESS_FREQ_DECAY_S`. -/
def INGRESS_FREQ_DECAY_S : Duration := 10 * nanosPerSec

/-- `EGRESS_PR_FREQ`. -/
def EGRESS_PR_FREQ : Float := 5.0

/-- `INTERVAL_OUTPUT_LINK_TRIED`. -/
def INTERVAL_OUTPUT_LINK_TRIED : Duration := 30 * nanosPerSec

/-- `PATH_REQUEST_MI`. -/
def PATH_REQUEST_MI : Duration := 20 * nanosPerSec

/-- `ingress_freq`: the frequency of the samples, unless it is zero, and those that are recent enough. -/
def ingressFreq (now : Instant) : List Instant → Option Float × List Instant
  | [] => (none, [])
  | oldest :: rest =>
    let deque := oldest :: rest
    if deque.length < INGRESS_DEQUE_MIN_SAMPLE then (none, deque)
    else
      let span := now.durationSince oldest
      if span > INGRESS_FREQ_DECAY_S then ingressFreq now rest
      else
        let spanS := Duration.asSecsF64 span
        if spanS ≤ 0 then (none, deque) else (some (Float.ofNat deque.length / spanS), deque)

/-- `LocalInterface`, as far as the path requests that go out over it read it. -/
structure EgressInterface where
  address : AddressHash
  /-- Its `stop` is cancelled. -/
  stopped : Bool
  opFreqDeque : List Instant

/-- The interfaces of an `InterfaceManager`, which have addresses of their own. -/
structure EgressInterfaces where
  ifaces : List EgressInterface
  distinct : (ifaces.map (·.address)).Nodup

namespace EgressInterfaces

/-- `active_interface_addresses`. -/
def activeInterfaceAddresses (manager : EgressInterfaces) : List AddressHash :=
  (manager.ifaces.filter fun iface => ¬ iface.stopped).map (·.address)

/-- `iface_by_address`. -/
def ifaceByAddress (manager : EgressInterfaces) (address : AddressHash) : Option EgressInterface :=
  (manager.ifaces.find? fun iface => iface.address = address).filter fun iface => ¬ iface.stopped

/-- The samples of one interface are replaced. -/
def setDeque (manager : EgressInterfaces) (address : AddressHash) (deque : List Instant) :
    EgressInterfaces where
  ifaces := manager.ifaces.map fun iface =>
    if iface.address = address then { iface with opFreqDeque := deque } else iface
  distinct := by
    -- No address changes.
    have same : (manager.ifaces.map fun iface =>
        if iface.address = address then { iface with opFreqDeque := deque } else iface).map
          (·.address) = manager.ifaces.map (·.address) := by
      rw [List.map_map]
      apply List.map_congr_left
      intro iface _
      simp only [Function.comp_apply]
      split <;> rfl
    rw [same]
    exact manager.distinct

/-- `egress_record_pr`: whether path requests go out over the interface too often. -/
def egressRecordPr (manager : EgressInterfaces) (now : Instant) (address : AddressHash) :
    Bool × EgressInterfaces :=
  match manager.ifaceByAddress address with
  | none => (false, manager)
  | some iface =>
    let pushed := iface.opFreqDeque ++ [now]
    let deque := if pushed.length > INGRESS_FREQ_SAMPLES then pushed.tail else pushed
    let (freq, deque) := ingressFreq now deque
    (freq.any fun freq => freq > EGRESS_PR_FREQ, manager.setDeque address deque)

/-- The loop of `forward_via_non_hot_ifaces` over the interfaces, without a filter of their modes. -/
def forwardEach (now : Instant) (packet : Packet) (onIface : Option AddressHash) :
    List AddressHash → EgressInterfaces → List TxMessage × EgressInterfaces
  | [], manager => ([], manager)
  | address :: rest, manager =>
    if onIface = some address then forwardEach now packet onIface rest manager
    else match manager.egressRecordPr now address with
      | (true, manager) => forwardEach now packet onIface rest manager
      | (false, manager) =>
        let (sent, manager) := forwardEach now packet onIface rest manager
        (⟨.direct address, packet⟩ :: sent, manager)

/-- `forward_via_non_hot_ifaces`, as `request_path` calls it. -/
def forwardViaNonHotIfaces (manager : EgressInterfaces) (now : Instant) (packet : Packet)
    (onIface : Option AddressHash) : List TxMessage × EgressInterfaces :=
  forwardEach now packet onIface manager.activeInterfaceAddresses manager

end EgressInterfaces

namespace AnnouncedPaths

/-- What `SendCtx::prepare` leaves of the table: a path that a packet takes is refreshed. -/
def prepared (paths : AnnouncedPaths) (now : Instant) (packet : Packet) : AnnouncedPaths :=
  if packet.header.destinationType = .link then paths
  else match paths.routes.handlePacket packet with
    | (_, some _) => paths.refresh now packet.destination
    | (_, none) => paths

end AnnouncedPaths

/-- What a pass of `handle_check_links` reads from outside. -/
structure LinkPass where
  now : Instant
  inIv : AddressHash → Iv
  outIv : AddressHash → Iv
  /-- The clock when the paths are requested, which is read once more. -/
  later : Instant
  ordered : now ≤ later
  /-- `create_random_tag`, by the destination it is drawn for. -/
  tag : AddressHash → AddressHash

/-- `TransportHandler` with what the rediscovery of paths reads and writes. -/
structure PathFinder where
  handler : TransportHandler
  pathTable : AnnouncedPaths
  routed : handler.pathTable = pathTable.routes
  retransmit : Bool
  pathRequests : PathRequests
  lastPathRequests : Table AddressHash Instant
  ifaces : EgressInterfaces

/-- The loop over the out-links between two links, with the paths it gave up. -/
structure PathSweep extends Sweep where
  pathTable : AnnouncedPaths
  routed : handler.pathTable = pathTable.routes
  /-- `rediscover_destinations`. -/
  rediscover : List (AddressHash × Option AddressHash)

namespace PathFinder

/-- Whether a path to the destination may be requested again. -/
def enoughTimePassed (finder : PathFinder) (now : Instant) (destination : AddressHash) : Bool :=
  (finder.lastPathRequests.lookup destination).all fun last => now.durationSince last > PATH_REQUEST_MI

/-- Whether a pending link has waited for its proof in vain, so that its path is given up. -/
def givesUp (finder : PathFinder) (paths : AnnouncedPaths) (now : Instant) (key : AddressHash)
    (link : LocalLink) : Bool :=
  link.elapsed now > INTERVAL_OUTPUT_LINK_TRIED ∧ ¬ paths.isUnresponsive key ∧
    finder.enoughTimePassed now key

/-- The path table of a round, and the destination it adds to `rediscover_destinations`. -/
def giveUp (finder : PathFinder) (paths : AnnouncedPaths) (now : Instant) (key : AddressHash)
    (link : LocalLink) (checked : Checked) :
    AnnouncedPaths × List (AddressHash × Option AddressHash) :=
  if link.status = .pending then
    -- A link that was never established goes, and its path is looked for on every interface.
    if link.establishmentExpired now then (paths, [(key, none)])
    else if finder.givesUp paths now key checked.link then
      let blockedIf := paths.nextHopIface key
      let marked := paths.markUnresponsive key
      -- Only a transport keeps the path it marked.
      (if finder.retransmit then marked else marked.remove key, [(key, blockedIf)])
    else (paths, [])
  else (paths, [])

/-- The body of the loop over the out-links. -/
def sweepOutLink (crates : Crates) (finder : PathFinder) (now : Instant) (iv : AddressHash → Iv)
    (sweep : PathSweep) (key : AddressHash) : PathSweep :=
  match sweep.handler.outLinks.lookup key with
  | none => sweep
  | some place =>
    let link := sweep.handler.outLink place
    let checked := link.checkOutLink crates sweep.handler.config.restartOutlinks now (iv key)
    let prepared := match checked.sent with
      | some packet => sweep.pathTable.prepared now packet
      | none => sweep.pathTable
    let (pathTable, rediscover) := finder.giveUp prepared now key link checked
    let swept := sweep.toSweep.outLink crates now iv key
    { handler := { swept.handler with pathTable := pathTable.routes }
      removed := swept.removed
      pending := swept.pending
      pathTable := pathTable
      routed := rfl
      rediscover := sweep.rediscover ++ rediscover }

/-- The loop over the out-links. -/
def sweepOutLinks (crates : Crates) (finder : PathFinder) (now : Instant) (iv : AddressHash → Iv) :
    PathSweep :=
  finder.handler.outLinks.keys.foldl (finder.sweepOutLink crates now iv)
    ⟨⟨finder.handler, [], []⟩, finder.pathTable, finder.routed, []⟩

/-- The first half of `handle_check_links`, which sends nothing along a path. -/
def checkInLinks (crates : Crates) (finder : PathFinder) (now : Instant) (iv : AddressHash → Iv) :
    List TxMessage × PathFinder :=
  let (handler, sent) := finder.handler.checkInLinks crates now iv
  (sent, { finder with
    handler := { handler with pathTable := finder.pathTable.routes }
    routed := rfl })

/-- The second half up to the links it removes, and the paths to rediscover. -/
def checkOutLinks (crates : Crates) (finder : PathFinder) (now : Instant) (iv : AddressHash → Iv) :
    List TxMessage × List (AddressHash × Option AddressHash) × PathFinder :=
  let sweep := finder.sweepOutLinks crates now iv
  let linkIds := sweep.removed.map (·.2)
  (sweep.pending, sweep.rediscover, { finder with
    handler := { sweep.handler with
      outLinks := sweep.handler.outLinks.eraseAll (sweep.removed.map (·.1))
      outLinksByLinkId := sweep.handler.outLinksByLinkId.eraseAll linkIds
      linkIfaces := sweep.handler.linkIfaces.eraseAll linkIds }
    pathTable := sweep.pathTable
    routed := sweep.routed })

/-- `TransportHandler::request_path`. -/
def requestPath (finder : PathFinder) (now : Instant) (address : AddressHash)
    (onIface : Option AddressHash) (tag : TagBytes) : List TxMessage × PathFinder :=
  if (finder.lastPathRequests.lookup address).any fun last => now.durationSince last ≤ PATH_REQUEST_MI then
    ([], finder)
  else
    let packet := finder.pathRequests.generate address tag
    let (sent, ifaces) := finder.ifaces.forwardViaNonHotIfaces now packet onIface
    -- What no interface takes is broadcast.
    (if sent.isEmpty then [⟨.broadcast onIface, packet⟩] else sent, { finder with
      lastPathRequests := finder.lastPathRequests.insert address now
      ifaces := ifaces })

/-- The loop over the interfaces besides the one a path was given up on. -/
def requestAround (now : Instant) (destination blockedIf : AddressHash) (tag : TagBytes) :
    List AddressHash → PathFinder → List TxMessage × PathFinder
  | [], finder => ([], finder)
  | iface :: rest, finder =>
    if iface ≠ blockedIf then
      let (sent, finder) := finder.requestPath now destination (some iface) tag
      let (more, finder) := requestAround now destination blockedIf tag rest finder
      (sent ++ more, finder)
    else requestAround now destination blockedIf tag rest finder

/-- The body of the loop over `rediscover_destinations`. -/
def rediscover (finder : PathFinder) (now : Instant) (tag : AddressHash → AddressHash)
    (destination : AddressHash) (blockedIf : Option AddressHash) : List TxMessage × PathFinder :=
  match blockedIf with
  | some blockedIf => requestAround now destination blockedIf (tag destination).bytes
      finder.ifaces.activeInterfaceAddresses finder
  | none => finder.requestPath now destination none (tag destination).bytes

/-- The loop over `rediscover_destinations`. -/
def rediscoverAll (now : Instant) (tag : AddressHash → AddressHash) :
    List (AddressHash × Option AddressHash) → PathFinder → List TxMessage × PathFinder
  | [], finder => ([], finder)
  | (destination, blockedIf) :: rest, finder =>
    let (sent, finder) := finder.rediscover now tag destination blockedIf
    let (more, finder) := rediscoverAll now tag rest finder
    (sent ++ more, finder)

/-- `handle_check_links`. -/
def handleCheckLinks (crates : Crates) (finder : PathFinder) (pass : LinkPass) :
    List TxMessage × PathFinder :=
  let (first, finder) := finder.checkInLinks crates pass.now pass.inIv
  let (second, destinations, finder) := finder.checkOutLinks crates pass.now pass.outIv
  let (asked, finder) := rediscoverAll pass.later pass.tag destinations finder
  (first ++ second ++ asked, finder)

end PathFinder

end Reticulum
