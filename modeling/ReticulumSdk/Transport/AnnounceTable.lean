import ReticulumSdk.Transport.Handler

/-! The announces a node passes on, the responses it owes, and the archive that answers for both. -/

namespace Reticulum

/-- `PATHFINDER_G`. -/
def PATHFINDER_G : Duration := 5 * nanosPerSec

/-- `PATHFINDER_RW_MILLIS`. -/
def PATHFINDER_RW_MILLIS : Nat := 500

/-- `LOCAL_REBROADCASTS_MAX`. -/
def LOCAL_REBROADCASTS_MAX : Nat := 2

/-- `ANNOUNCE_CACHE_MAX_AGE`. -/
def ANNOUNCE_CACHE_MAX_AGE : Duration := 60 * 60 * nanosPerSec

/-- `ANNOUNCE_CACHE_PRUNE_INTERVAL`. -/
def ANNOUNCE_CACHE_PRUNE_INTERVAL : Duration := 60 * nanosPerSec

/-- `ANNOUNCE_CACHE_CAPACITY`. -/
def ANNOUNCE_CACHE_CAPACITY : Nat := 10000

/-- `random_rw_jitter`, from the number the generator gave. -/
def randomRwJitter (random : UInt64) : Duration :=
  random.toNat % (PATHFINDER_RW_MILLIS + 1) * (nanosPerSec / 1000)

/-- `AnnounceEntry`. -/
structure AnnounceEntry where
  packet : Packet
  timestamp : Instant
  timeout : Instant
  receivedFrom : AddressHash
  retries : Nat
  localRebroadcasts : Nat
  hops : UInt8
  responseToIface : Option AddressHash
  deriving DecidableEq

/-- `RetransmitOutcome`. -/
inductive RetransmitOutcome where
  | completed
  | deferred
  | ready (message : TxMessage)
  deriving DecidableEq

/-- The message of an entry that is ready. -/
def RetransmitOutcome.message : RetransmitOutcome → Option TxMessage
  | .ready message => some message
  | _ => none

/-- An announce as a transport passes it on. -/
def relayedAnnounce (announce : Packet) (destination transportId : AddressHash) (hops : UInt8)
    (context : PacketContext) : Packet where
  header := {
    headerType := .type2
    contextFlag := announce.header.contextFlag
    propagationType := .transport
    packetType := .announce
    hops := hops }
  destination := destination
  transport := some transportId
  context := context
  data := announce.data

namespace AnnounceEntry

/-- `always_retransmit`. -/
def alwaysRetransmit (entry : AnnounceEntry) (transportId : AddressHash) : TxMessage where
  -- A response goes to the one that asked, and a rebroadcast to all others than the one it came from.
  txType := match entry.responseToIface with
    | some iface => .direct iface
    | none => .broadcastFrom entry.receivedFrom
  packet := relayedAnnounce entry.packet entry.packet.destination transportId entry.hops
    (if entry.responseToIface.isSome then .pathResponse else entry.packet.context)

/-- `retransmit`: what to do with the entry, and the entry it leaves. -/
def retransmit (entry : AnnounceEntry) (now : Instant) (random : UInt64) (transportId : AddressHash) :
    RetransmitOutcome × AnnounceEntry :=
  if entry.retries ≥ LOCAL_REBROADCASTS_MAX ∨ entry.localRebroadcasts ≥ LOCAL_REBROADCASTS_MAX then
    (.completed, entry)
  else if now < entry.timeout then (.deferred, entry)
  else
    -- The message is made of the entry as it is afterwards.
    let sent := { entry with
      retries := entry.retries + 1
      timeout := now + PATHFINDER_G + randomRwJitter random }
    (.ready (sent.alwaysRetransmit transportId), sent)

end AnnounceEntry

/-- `AnnounceCache`: the generation that is filled, and the one before it. -/
structure AnnounceCache where
  newer : Table AddressHash AnnounceEntry
  older : Option (Table AddressHash AnnounceEntry)
  capacity : Nat
  lastPrune : Instant

namespace AnnounceCache

/-- `AnnounceCache::new`. -/
def new (now : Instant) (capacity : Nat) : AnnounceCache where
  newer := ∅
  older := none
  capacity := capacity
  lastPrune := now

/-- `AnnounceCache::insert`: a full generation becomes the older one. -/
def insert (cache : AnnounceCache) (destination : AddressHash) (entry : AnnounceEntry) :
    AnnounceCache :=
  -- The generation that was the older one is forgotten as a whole.
  let turned := if cache.newer.size ≥ cache.capacity then
    { cache with older := some cache.newer, newer := ∅ } else cache
  { turned with newer := turned.newer.insert destination entry }

/-- `AnnounceCache::get`. -/
def get (cache : AnnounceCache) (destination : AddressHash) : Option AnnounceEntry :=
  match cache.newer.lookup destination with
  | some entry => some entry
  | none => cache.older.bind fun older => older.lookup destination

/-- `AnnounceCache::prune`. -/
def prune (cache : AnnounceCache) (now : Instant) (maxAge : Duration) : AnnounceCache :=
  -- Both generations are swept, but not more often than once in an interval.
  if now.durationSince cache.lastPrune < ANNOUNCE_CACHE_PRUNE_INTERVAL then cache
  else
    let recent (_ : AddressHash) (entry : AnnounceEntry) : Bool :=
      now.durationSince entry.timestamp ≤ maxAge
    { cache with
      lastPrune := now
      newer := cache.newer.retain recent
      older := cache.older.map (Table.retain recent) }

/-- How many entries both generations hold. -/
def size (cache : AnnounceCache) : Nat := cache.newer.size + (cache.older.map Table.size).getD 0

end AnnounceCache

/-- `AnnounceTable`. -/
structure AnnounceTable where
  map : Table AddressHash AnnounceEntry
  responses : Table AddressHash AnnounceEntry
  cache : AnnounceCache

namespace AnnounceTable

/-- `AnnounceTable::new`. -/
def new (now : Instant) : AnnounceTable where
  map := ∅
  responses := ∅
  cache := .new now ANNOUNCE_CACHE_CAPACITY

/-- The entry of an announce that was just received. -/
def entryOf (now : Instant) (random : UInt64) (announce : Packet) (receivedFrom : AddressHash) :
    AnnounceEntry where
  packet := announce
  timestamp := now
  timeout := now + randomRwJitter random
  receivedFrom := receivedFrom
  retries := 0
  localRebroadcasts := 0
  hops := announce.header.hops
  responseToIface := none

/-- `AnnounceTable::add`. -/
def add (table : AnnounceTable) (now : Instant) (random : UInt64) (announce : Packet)
    (destination receivedFrom : AddressHash) : AnnounceTable :=
  { table with map := table.map.insert destination (entryOf now random announce receivedFrom) }

/-- `AnnounceTable::do_add_response`. -/
def doAddResponse (table : AnnounceTable) (now : Instant) (random : UInt64) (response : AnnounceEntry)
    (destination toIface : AddressHash) (hops : UInt8) (grace : Duration) : AnnounceTable :=
  -- A response that was pending for the same destination is overwritten.
  { table with responses := table.responses.insert destination { response with
      retries := 0
      localRebroadcasts := 0
      hops := hops
      timeout := now + grace + randomRwJitter random
      responseToIface := some toIface } }

/-- `AnnounceTable::add_response`: whether there is an announce to respond with, and the table. -/
def addResponse (table : AnnounceTable) (now : Instant) (random : UInt64)
    (destination toIface : AddressHash) (hops : UInt8) (grace : Duration) : Bool × AnnounceTable :=
  -- The announce is looked for in the map first, and then in the archive.
  match table.map.lookup destination with
  | some entry => (true, table.doAddResponse now random entry destination toIface hops grace)
  | none =>
    match table.cache.get destination with
    | some entry => (true, table.doAddResponse now random entry destination toIface hops grace)
    | none => (false, table)

/-- `AnnounceTable::contains_key`. -/
def containsKey (table : AnnounceTable) (destination : AddressHash) : Bool :=
  destination ∈ table.map

/-- `AnnounceTable::echo_received`, where one more than the largest hop count overflows. -/
def echoReceived (profile : Profile) (table : AnnounceTable) (now : Instant)
    (destination : AddressHash) (hops : UInt8) : Outcome (Bool × AnnounceTable) :=
  match table.map.lookup destination with
  | none => .ok (false, table)
  | some entry =>
    -- Only what was sent at least once can be echoed.
    if entry.retries > 0 ∧ hops > 0 then
      -- A neighbour passed on the same announce that this node passed on.
      if hops - 1 = entry.hops then
        let echoed := { entry with localRebroadcasts := entry.localRebroadcasts + 1 }
        if echoed.localRebroadcasts ≥ LOCAL_REBROADCASTS_MAX then
          .ok (true, { table with map := table.map.erase destination })
        else .ok (false, { table with map := table.map.insert destination echoed })
      -- A neighbour passed on the announce that this node sent, which makes a retry needless.
      else do
        let next ← profile.add 256 entry.hops.toNat 1
        if (hops - 1).toNat = next ∧ now < entry.timeout then
          return (true, { table with map := table.map.erase destination })
        else return (false, table)
    else .ok (false, table)

/-- What a sweep finds for the announce of a destination: nothing to do while a response is pending. -/
def sweepAnnounce (table : AnnounceTable) (now : Instant) (random : AddressHash → UInt64)
    (transportId destination : AddressHash) (entry : AnnounceEntry) :
    RetransmitOutcome × AnnounceEntry :=
  if destination ∈ table.responses then (.deferred, entry)
  else entry.retransmit now (random destination) transportId

/-- A completed announce goes from the map into the cache. -/
def archive (state : Table AddressHash AnnounceEntry × AnnounceCache) (destination : AddressHash) :
    Table AddressHash AnnounceEntry × AnnounceCache :=
  match state.1.lookup destination with
  | some announce => (state.1.erase destination, state.2.insert destination announce)
  | none => state

/-- `AnnounceTable::to_retransmit`, with the random numbers for the announces and the responses. -/
def toRetransmit (table : AnnounceTable) (now : Instant)
    (random randomResponse : AddressHash → UInt64) (transportId : AddressHash) :
    List TxMessage × AnnounceTable :=
  let cache := table.cache.prune now ANNOUNCE_CACHE_MAX_AGE
  let sweep := table.sweepAnnounce now random transportId
  let announces := table.map.entries.filterMap fun entry => (sweep entry.1 entry.2).1.message
  -- Only announces are completed; they are collected before any is taken out.
  let completed := (table.map.entries.filter fun entry =>
    (sweep entry.1 entry.2).1 = .completed).map (·.1)
  let map := table.map.mapValues fun destination entry => (sweep destination entry).2
  let answer (destination : AddressHash) (entry : AnnounceEntry) :=
    entry.retransmit now (randomResponse destination) transportId
  let answers := table.responses.entries.filterMap fun entry => (answer entry.1 entry.2).1.message
  let responses := table.responses.mapValues fun destination entry => (answer destination entry).2
  -- A response that was sent has a retry, and is taken away; the others wait for their timeouts.
  let waiting := responses.retain fun _ entry => entry.retries = 0
  let archived := completed.foldl archive (map, cache)
  (announces ++ answers, { map := archived.1, responses := waiting, cache := archived.2 })

end AnnounceTable

end Reticulum
