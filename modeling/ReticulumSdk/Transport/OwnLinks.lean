import ReticulumSdk.Base.Index
import ReticulumSdk.Base.Run
import ReticulumSdk.Link.Timers
import ReticulumSdk.Transport.Receive

/-! The tables of a node's own links, and everything that writes to them. -/

namespace Reticulum

/-- What `Link::new` reads from outside: the clock, a key pair, and how the default peer verifies. -/
structure LinkStart where
  now : Instant
  keys : LinkKeys
  verifyDefault : Bytes → Signature → Bool

/-- The loops of `handle_check_links` between two links, with what they decided so far. -/
structure Sweep where
  handler : TransportHandler
  /-- `links_to_remove`, and beside each the id of its link. -/
  removed : List (AddressHash × AddressHash)
  pending : List TxMessage

namespace Sweep

variable (crates : Crates) (now : Instant) (iv : AddressHash → Iv)

/-- What was decided for the link under a key. -/
def note (sweep : Sweep) (key : AddressHash) (checked : Checked) : Sweep :=
  let (handler, sent) := match checked.sent with
    | some packet =>
      let (message, handler) := sweep.handler.prepare now packet
      (handler, [message])
    | none => (sweep.handler, [])
  { handler := handler
    removed := sweep.removed ++ if checked.removed then [(key, checked.link.id)] else []
    pending := sweep.pending ++ sent }

/-- The body of the loop over the in-links. -/
def inLink (sweep : Sweep) (key : AddressHash) : Sweep :=
  match sweep.handler.inLinks.lookup key with
  | none => sweep
  | some link =>
    let checked := link.checkInLink crates now (iv key)
    note now { sweep with handler := { sweep.handler with
      inLinks := sweep.handler.inLinks.insert key checked.link } } key checked

/-- The body of the loop over the out-links. -/
def outLink (sweep : Sweep) (key : AddressHash) : Sweep :=
  match sweep.handler.outLinks.lookup key with
  | none => sweep
  | some place =>
    let checked := (sweep.handler.outLink place).checkOutLink crates
      sweep.handler.config.restartOutlinks now (iv key)
    note now { sweep with handler := sweep.handler.setOutLink place checked.link } key checked

end Sweep

namespace TransportHandler

/-- The `path_mtu` of a link to a destination. -/
def pathMtu (handler : TransportHandler) (destination : AddressHash) : Option Nat :=
  if handler.config.linkMtuDiscovery then
    match handler.pathTable.nextHopRoute destination with
    | some (_, iface, _) => handler.hwMtu iface
    | none => none
  else none

/-- How long a link may stay unestablished, by the hops of its path. -/
def establishmentTimeout (handler : TransportHandler) (destination : AddressHash) : Duration :=
  let hops := match handler.pathTable.nextHopRoute destination with
    | some (_, _, hops) => hops.toNat
    | none => 1
  DEFAULT_PER_HOP_TIMEOUT * (max hops 1 + 1)

/-- The link of `Transport::link`, and its request. -/
def newLink (handler : TransportHandler) (start : LinkStart) (destination : DestinationDesc) :
    LocalLink × Packet :=
  let link := { LocalLink.new start.now start.keys destination start.verifyDefault with
    provesMessages := handler.config.proveLinkMessages }
  let link := link.setEstablishmentDeadline start.now
    (handler.establishmentTimeout destination.addressHash)
  link.request start.now (handler.pathMtu destination.addressHash)

/-- The link of `update_blackhole_from_source`, and its request. -/
def newFetchLink (handler : TransportHandler) (start : LinkStart) (destHash : AddressHash)
    (destination : DestinationDesc) : LocalLink × Packet :=
  (LocalLink.new start.now start.keys destination start.verifyDefault).request start.now
    (handler.pathMtu destHash)

/-- `Transport::link_close`: a link that cannot tell its peer stays as it is. -/
def linkClose (crates : Crates) (handler : TransportHandler) (now : Instant) (iv : Iv)
    (linkId : AddressHash) : TransportHandler :=
  let sent (handler : TransportHandler) : Option Packet → TransportHandler
    | some packet => (handler.prepare now packet).2
    | none => handler
  match handler.inLinks.lookup linkId with
  | some link =>
    match link.teardown crates iv with
    | .ok (packet, closed) => sent { handler with inLinks := handler.inLinks.insert linkId closed } packet
    | .error _ => handler
  | none =>
    match handler.outLinksByLinkId.lookup linkId with
    | some place =>
      match (handler.outLink place).teardown crates iv with
      | .ok (packet, closed) => sent (handler.setOutLink place closed) packet
      | .error _ => handler
    | none => handler

/-- The first half of `handle_check_links`. -/
def checkInLinks (crates : Crates) (handler : TransportHandler) (now : Instant)
    (iv : AddressHash → Iv) : TransportHandler × List TxMessage :=
  let sweep := handler.inLinks.keys.foldl (Sweep.inLink crates now iv) ⟨handler, [], []⟩
  let links := sweep.removed.map (·.1)
  ({ sweep.handler with
      inLinks := sweep.handler.inLinks.eraseAll links
      linkIfaces := sweep.handler.linkIfaces.eraseAll links }, sweep.pending)

/-- The second half, without the paths it asks for again. -/
def checkOutLinks (crates : Crates) (handler : TransportHandler) (now : Instant)
    (iv : AddressHash → Iv) : TransportHandler × List TxMessage :=
  let sweep := handler.outLinks.keys.foldl (Sweep.outLink crates now iv) ⟨handler, [], []⟩
  let linkIds := sweep.removed.map (·.2)
  ({ sweep.handler with
      outLinks := sweep.handler.outLinks.eraseAll (sweep.removed.map (·.1))
      outLinksByLinkId := sweep.handler.outLinksByLinkId.eraseAll linkIds
      linkIfaces := sweep.handler.linkIfaces.eraseAll linkIds }, sweep.pending)

/-- `handle_check_links`, with the random vectors for the in-links and for the out-links. -/
def handleCheckLinks (crates : Crates) (handler : TransportHandler) (now : Instant)
    (inIv outIv : AddressHash → Iv) : TransportHandler × List TxMessage :=
  let (handler, first) := handler.checkInLinks crates now inIv
  let (handler, second) := handler.checkOutLinks crates now outIv
  (handler, first ++ second)

/-- The handler of a packet that passed the filters, when it is for the links of this node. -/
def dispatch (crates : Crates) (handler : TransportHandler) (arrival : Arrival) :
    Outcome TransportHandler :=
  match arrival.packet.header.packetType with
  | .linkRequest => .ok (handler.handleLinkRequest crates arrival.secret arrival.around.now
      arrival.packet arrival.iface).1
  | .proof => Prod.fst <$> handler.handleProof crates arrival.around arrival.packet arrival.radio
      arrival.iface
  | .data =>
    if arrival.packet.header.destinationType = .link then
      Prod.fst <$> handler.handleLinkData crates arrival.around arrival.packet arrival.iface
    else .ok handler
  | .announce => .ok handler

end TransportHandler

/--
A task that makes out-links, between two of its locks of the handler. Until a link is in the tables
only its task has it.
-/
inductive LinkTask where
  | idle
  /-- `Transport::link` has looked for a link. -/
  | lookedUp (destination : DestinationDesc) (found : Option Nat)
  /-- A link is requested, by `Transport::link` or by the blackhole updater. -/
  | requested (key : AddressHash) (link : LocalLink) (fetches : Bool)
  /-- The blackhole updater has its link in the tables, until the list came, which is not asked here. -/
  | fetching (key linkId : AddressHash)

/-- A transport with the tasks that make out-links, and the next place for one. -/
structure LinkNode extends TransportHandler where
  nextPlace : Nat
  tasks : Nat → LinkTask

/-- What writes to the tables of the links, one lock of the handler at a time. -/
inductive TableEvent where
  /-- `Transport::link` is called. -/
  | link (task : Nat) (destination : DestinationDesc)
  /-- `update_blackhole_from_source` is called. -/
  | fetch (task : Nat) (start : LinkStart) (destHash : AddressHash) (destination : DestinationDesc)
  /-- A task goes on to its next lock of the handler. -/
  | resume (task : Nat) (start : LinkStart)
  /-- A task returns early, or is dropped. -/
  | stop (task : Nat)
  | receive (arrival : Arrival)
  | close (now : Instant) (iv : Iv) (linkId : AddressHash)
  | checkLinks (now : Instant) (inIv outIv : AddressHash → Iv)
  /-- Anything that does not write to them. -/
  | other (change : TransportHandler → TransportHandler)

namespace LinkNode

/-- A node before its first task. -/
def new (config : TransportConfig) : LinkNode where
  toTransportHandler := .new config
  nextPlace := 0
  tasks _ := .idle

/-- A task in its next state. -/
def setTask (node : LinkNode) (task : Nat) (state : LinkTask) : LinkNode :=
  { node with tasks := Function.update node.tasks task state }

/-- A handler's work leaves the tasks alone. -/
def withHandler (node : LinkNode) (handler : TransportHandler) : LinkNode :=
  { node with toTransportHandler := handler }

/-- A requested link is sent for, and kept by its task. -/
def request (node : LinkNode) (task : Nat) (now : Instant) (key : AddressHash)
    (requested : LocalLink × Packet) (fetches : Bool) : LinkNode :=
  (node.withHandler (node.prepare now requested.2).2).setTask task
    (.requested key requested.1 fetches)

/-- A link goes into both maps, over whatever they hold. -/
def insertOutLink (node : LinkNode) (key : AddressHash) (link : LocalLink) : LinkNode :=
  { node with
    outLink := Function.update node.outLink node.nextPlace link
    nextPlace := node.nextPlace + 1
    outLinks := node.outLinks.insert key node.nextPlace
    outLinksByLinkId := node.outLinksByLinkId.insert link.id node.nextPlace }

/-- The end of `update_blackhole_from_source` takes both entries away, whatever they hold. -/
def removeOutLink (node : LinkNode) (key linkId : AddressHash) : LinkNode :=
  { node with
    outLinks := node.outLinks.erase key
    outLinksByLinkId := node.outLinksByLinkId.erase linkId }

/-- What a task does next. -/
def resume (node : LinkNode) (task : Nat) (start : LinkStart) : LinkNode :=
  match node.tasks task with
  | .idle => node
  | .lookedUp destination found =>
    if found.any fun place => (node.outLink place).status ≠ .closed then node.setTask task .idle
    else node.request task start.now destination.addressHash (node.newLink start destination) false
  | .requested key link fetches =>
    (node.insertOutLink key link).setTask task (if fetches then .fetching key link.id else .idle)
  | .fetching key linkId => (node.removeOutLink key linkId).setTask task .idle

/-- Other work on a node, which the tables of the links survive. -/
def otherwise (node : LinkNode) (change : TransportHandler → TransportHandler) : LinkNode :=
  node.withHandler { change node.toTransportHandler with
    outLink := node.outLink
    outLinks := node.outLinks
    outLinksByLinkId := node.outLinksByLinkId
    inLinks := node.inLinks
    linkIfaces := node.linkIfaces }

/-- One event at a node. -/
def handle (crates : Crates) (node : LinkNode) : TableEvent → Outcome LinkNode
  | .link task destination =>
    .ok (node.setTask task (.lookedUp destination (node.outLinks.lookup destination.addressHash)))
  | .fetch task start destHash destination =>
    .ok (node.request task start.now destHash (node.newFetchLink start destHash destination) true)
  | .resume task start => .ok (node.resume task start)
  | .stop task => .ok (node.setTask task .idle)
  | .receive arrival => node.withHandler <$> node.dispatch crates arrival
  | .close now iv linkId => .ok (node.withHandler (node.linkClose crates now iv linkId))
  | .checkLinks now inIv outIv =>
    .ok (node.withHandler (node.handleCheckLinks crates now inIv outIv).1)
  | .other change => .ok (node.otherwise change)

/-- An event that finishes, as a step between nodes. -/
def Steps (crates : Crates) (node : LinkNode) (event : TableEvent) (after : LinkNode) : Prop :=
  node.handle crates event = .ok after

end LinkNode

end Reticulum
