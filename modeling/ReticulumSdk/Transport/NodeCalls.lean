import ReticulumSdk.Base.Index
import ReticulumSdk.Base.Run
import ReticulumSdk.Transport.Announces

/-! Everything that happens to what a node keeps of announces, one lock of its handler at a time. -/

namespace Reticulum

/-- `INTERVAL_SINGLE_OUT_DESTINATION_EXPIRE`: a week. -/
def INTERVAL_SINGLE_OUT_DESTINATION_EXPIRE : Duration := 7 * 24 * 60 * 60 * nanosPerSec

/-- `BLACKHOLE_CHECK_INTERVAL`. -/
def BLACKHOLE_CHECK_INTERVAL : Duration := 60 * nanosPerSec

namespace AnnounceTable

/-- `AnnounceTable::clear`. -/
def clear (table : AnnounceTable) : AnnounceTable where
  map := ∅
  responses := ∅
  cache := { table.cache with newer := ∅, older := none }

/-- The archived announces of one generation that no response is pending for. -/
def oldMessages (table : AnnounceTable) (transportId : AddressHash)
    (generation : Table AddressHash AnnounceEntry) : List TxMessage :=
  (generation.entries.filter fun entry => entry.1 ∉ table.responses).map fun entry =>
    entry.2.alwaysRetransmit transportId

/-- `AnnounceTable::to_retransmit_old`. -/
def toRetransmitOld (table : AnnounceTable) (transportId : AddressHash) : List TxMessage :=
  table.oldMessages transportId table.cache.newer ++
    (table.cache.older.map (table.oldMessages transportId)).getD []

end AnnounceTable

/-- `BlackholeEntry::is_expired`. -/
def BlackholeEntry.isExpired (entry : BlackholeEntry) (now : Instant) : Bool :=
  entry.until.any fun «until» => now ≥ «until»

namespace BlackholeTable

/-- `BlackholeTable::remove`. -/
def remove (table : BlackholeTable) (identityHash : AddressHash) : BlackholeTable :=
  { table with entries := table.entries.erase identityHash }

/-- `BlackholeTable::check_expired`, which is done once in an interval. -/
def checkExpired (table : BlackholeTable) (now : Instant) : BlackholeTable :=
  if now ≥ table.lastCheck + BLACKHOLE_CHECK_INTERVAL then
    { lastCheck := now
      entries := table.entries.retain fun _ entry => ¬ entry.isExpired now }
  else table

end BlackholeTable

namespace AnnounceNode

variable {agreement : KeyAgreement}

/-- Some destinations are no longer known. -/
def forget (node : AnnounceNode agreement) (destinations : List AddressHash) : AnnounceNode agreement :=
  let known := node.singleOutDestinations.eraseAll destinations
  { node with
    singleOutDestinations := known
    singleOutLastSeen := node.singleOutLastSeen.eraseAll destinations
    handler := { node.handler with
      singleOutDestinations := known.mapValues fun _ destination => destination.desc }
    described := rfl
    routed := node.routed
    owned := node.owned }

/-- The destinations `remove_blackholed_paths` drops: those of blackholed identities that are not locked. -/
def blackholedDestinations (node : AnnounceNode agreement) (locked : AddressHash → Bool) :
    List AddressHash :=
  (node.singleOutDestinations.entries.filter fun entry =>
    ¬ locked entry.1 ∧ entry.2.identity.addressHash ∈ node.blackholeTable.entries).map (·.1)

/-- `remove_blackholed_paths`, where some destinations are locked by other tasks. -/
def removeBlackholedPaths (node : AnnounceNode agreement) (locked : AddressHash → Bool) :
    AnnounceNode agreement :=
  let dropped := node.blackholedDestinations locked
  (node.forget dropped).withPaths { node.pathTable with map := node.pathTable.map.eraseAll dropped }

/-- `Transport::blackhole_identity`, and `rpc_blackhole_identity` once its request is read. -/
def blackholeIdentity (node : AnnounceNode agreement) (identityHash : AddressHash)
    (entry : BlackholeEntry) (locked : AddressHash → Bool) : AnnounceNode agreement :=
  { node with blackholeTable := (node.blackholeTable.add identityHash entry).2 }.removeBlackholedPaths
    locked

/-- `prune_single_out_destinations`. -/
def pruneSingleOutDestinations (node : AnnounceNode agreement) (now : Instant) :
    AnnounceNode agreement :=
  node.forget ((node.singleOutLastSeen.entries.filter fun entry =>
    now.durationSince entry.2 > INTERVAL_SINGLE_OUT_DESTINATION_EXPIRE).map (·.1))

/-- What the cleanup of the packet cache does to the tables beside it. -/
def cleanUp (node : AnnounceNode agreement) (now : Instant) (isActiveIface : AddressHash → Bool) :
    AnnounceNode agreement :=
  let pruned := node.pruneSingleOutDestinations now
  let checked := { pruned with blackholeTable := pruned.blackholeTable.checkExpired now }
  checked.withPaths (checked.pathTable.removeStale now isActiveIface)

/-- `retransmit_announces`, with the random numbers for the announces and the responses. -/
def retransmitAnnounces (node : AnnounceNode agreement) (now : Instant)
    (random randomResponse : AddressHash → UInt64) (retransmitOld : Bool) :
    List TxMessage × AnnounceNode agreement :=
  let transportId := node.handler.config.identity
  let (messages, announceTable) :=
    node.announceTable.toRetransmit now random randomResponse transportId
  (messages ++ if retransmitOld then announceTable.toRetransmitOld transportId else [],
    { node with announceTable := announceTable })

/-- Other work on a node, which leaves what it keeps of announces. -/
def otherwise (node : AnnounceNode agreement) (change : TransportHandler → TransportHandler) :
    AnnounceNode agreement :=
  let changed := change node.handler
  { node with
    handler := { changed with
      pathTable := node.handler.pathTable
      singleInDestinations := node.handler.singleInDestinations
      singleOutDestinations := node.handler.singleOutDestinations }
    routed := node.routed
    owned := node.owned
    described := node.described }

end AnnounceNode

/-- A call that reads or writes what a node keeps of announces. -/
inductive NodeCall where
  | announce (arrival : AnnounceArrival)
  /-- A path request arrives; of its packet only the data are read. -/
  | pathRequest (arrival : AnnounceArrival)
  | retransmit (now : Instant) (random randomResponse : AddressHash → UInt64) (retransmitOld : Bool)
  /-- An operator blackholes an identity, while some destinations are locked. -/
  | blackhole (identityHash : AddressHash) (entry : BlackholeEntry) (locked : AddressHash → Bool)
  | unblackhole (identityHash : AddressHash)
  /-- The list of a peer arrives, at the end of `update_blackhole_from_source`. -/
  | update (now : Instant) (source : AddressHash) (response : Value)
  | cleanUp (now : Instant) (isActiveIface : AddressHash → Bool)
  | cull (now : Instant) (isActiveIface : AddressHash → Bool)
  | dropPath (destination : AddressHash)
  | dropAllVia (via : AddressHash)
  | dropAnnounceQueues
  | markUnresponsive (destination : AddressHash)
  | refresh (now : Instant) (destination : AddressHash)
  | rebalanceHops (destination : AddressHash) (proofHops : UInt8)
  | otherwise (change : TransportHandler → TransportHandler)

namespace AnnounceNode

variable {agreement : KeyAgreement}

/-- What a node sends for a call, and what the call leaves of it. -/
def handle (profile : Profile) (curves : Curves) (node : AnnounceNode agreement) :
    NodeCall → Outcome (List TxMessage × AnnounceNode agreement)
  | .announce arrival => do
    let (outbound, after) ← node.receive profile curves arrival.received
    return (outbound.handled ++ outbound.forwarded, after)
  | .pathRequest arrival => .ok (node.handlePathRequest arrival)
  | .retransmit now random randomResponse retransmitOld =>
    .ok (node.retransmitAnnounces now random randomResponse retransmitOld)
  | .blackhole identityHash entry locked => .ok ([], node.blackholeIdentity identityHash entry locked)
  | .unblackhole identityHash =>
    .ok ([], { node with blackholeTable := node.blackholeTable.remove identityHash })
  | .update now source response => do
    let (_, table) ← node.blackholeTable.mergeResponse now source response
    return ([], { node with blackholeTable := table })
  | .cleanUp now isActiveIface => .ok ([], node.cleanUp now isActiveIface)
  | .cull now isActiveIface =>
    .ok ([], node.withPaths (node.pathTable.removeStale now isActiveIface))
  | .dropPath destination => .ok ([], node.withPaths (node.pathTable.remove destination))
  | .dropAllVia via => .ok ([], node.withPaths (node.pathTable.dropAllVia via))
  | .dropAnnounceQueues => .ok ([], { node with announceTable := node.announceTable.clear })
  | .markUnresponsive destination =>
    .ok ([], node.withPaths (node.pathTable.markUnresponsive destination))
  | .refresh now destination => .ok ([], node.withPaths (node.pathTable.refresh now destination))
  | .rebalanceHops destination proofHops =>
    .ok ([], node.withPaths (node.pathTable.rebalanceHops destination proofHops))
  | .otherwise change => .ok ([], node.otherwise change)

/-- A call with what is sent for it, as a step between nodes. -/
def Steps (profile : Profile) (curves : Curves) (node : AnnounceNode agreement)
    (exchange : NodeCall × List TxMessage) (after : AnnounceNode agreement) : Prop :=
  node.handle profile curves exchange.1 = .ok (exchange.2, after)

end AnnounceNode

end Reticulum
