import ReticulumSdk.Base.Clock
import ReticulumSdk.Base.Table
import ReticulumSdk.Link.Establish

/-! The packets a node has seen, the way back of the packets it forwarded, and the routes it knows. -/

namespace Reticulum

/-- `PacketTrack`. -/
structure PacketTrack where
  time : Instant
  minHops : UInt8
  deriving DecidableEq

/-- `PacketCache`. -/
structure PacketCache where
  map : Table Hash PacketTrack
  maxEntries : Nat

namespace PacketCache

/-- `PacketCache::new`. -/
def new : PacketCache where
  map := ∅
  maxEntries := 250000

/-- Whether a packet of this hash was seen and not forgotten. -/
def Knows (cache : PacketCache) (packet : Packet) : Prop := packet.hash ∈ cache.map

instance (cache : PacketCache) (packet : Packet) : Decidable (cache.Knows packet) :=
  inferInstanceAs (Decidable (packet.hash ∈ cache.map))

/-- `PacketCache::release_packet`. -/
def releasePacket (cache : PacketCache) (packet : Packet) : PacketCache :=
  { cache with map := cache.map.erase packet.hash }

/-- The first of the entries with the earliest time, when that is before a reading. -/
def oldest (now : Instant) (entries : List (Sigma fun _ : Hash => PacketTrack)) : Option Hash :=
  (entries.foldl (fun (best : Option Hash × Instant) entry =>
    if entry.2.time < best.2 then (some entry.1, entry.2.time) else best) (none, now)).1

/-- The eviction of `PacketCache::update`: a full cache forgets its oldest packet. -/
def evict (cache : PacketCache) (now : Instant) : PacketCache :=
  if cache.map.size ≥ cache.maxEntries then
    match oldest now cache.map.entries with
    | some key => { cache with map := cache.map.erase key }
    | none => cache
  else cache

/-- `PacketCache::update`: whether the packet is new, and the cache that knows it. -/
def update (cache : PacketCache) (now : Instant) (packet : Packet) : Bool × PacketCache :=
  match cache.map.lookup packet.hash with
  | some track =>
    (false, { cache with map := cache.map.insert packet.hash {
      time := now
      minHops := min packet.header.hops track.minHops } })
  | none =>
    let evicted := cache.evict now
    (true, { evicted with map := evicted.map.insert packet.hash {
      time := now
      minHops := packet.header.hops } })

/-- A packet is new exactly when the cache does not know it. -/
theorem update_fst (cache : PacketCache) (now : Instant) (packet : Packet) :
    (cache.update now packet).1 = true ↔ ¬ cache.Knows packet := by
  unfold update Knows
  rw [← AList.lookup_isSome]
  cases cache.map.lookup packet.hash <;> simp

/-- After an update the packet is known. -/
theorem update_knows (cache : PacketCache) (now : Instant) (packet : Packet) :
    (cache.update now packet).2.Knows packet := by
  unfold update Knows
  cases cache.map.lookup packet.hash <;> simp

end PacketCache

/-- `ReverseEntry`. -/
structure ReverseEntry where
  timestamp : Instant
  receivedFrom : AddressHash
  outboundInterface : AddressHash

/-- `ReverseTable`. -/
abbrev ReverseTable := Table AddressHash ReverseEntry

namespace ReverseTable

/-- `send_backwards`. -/
def sendBackwards (packet : Packet) (entry : ReverseEntry) : Packet × AddressHash :=
  ({ packet with
      header := { packet.header with ifacFlag := .opened }
      ifac := none }, entry.receivedFrom)

/-- `ReverseTable::add`. -/
def add (table : ReverseTable) (now : Instant) (packet : Packet)
    (receivedFrom outboundInterface : AddressHash) : ReverseTable :=
  table.insert (.newFromHash packet.hash) {
    timestamp := now
    receivedFrom := receivedFrom
    outboundInterface := outboundInterface }

/-- `ReverseTable::handle_proof`, which consumes the entry either way. -/
def handleProof (table : ReverseTable) (proof : Packet) (receivedOn : AddressHash) :
    Option (Packet × AddressHash) × ReverseTable :=
  match table.lookup proof.destination with
  | none => (none, table)
  | some entry =>
    (if receivedOn = entry.outboundInterface then some (sendBackwards proof entry) else none,
      table.erase proof.destination)

end ReverseTable

/-- `PathEntry`, as far as routing reads it. -/
structure PathEntry where
  timestamp : Instant
  receivedFrom : AddressHash
  hops : UInt8
  iface : AddressHash
  expires : Instant
  pathExpiry : Duration
  deriving DecidableEq

/-- The header type, propagation and transport a packet takes along a path. -/
def PathEntry.stamp (entry : PathEntry) : HeaderType × PropagationType × Option AddressHash :=
  if entry.hops > 1 then (.type2, .transport, some entry.receivedFrom)
  else (.type1, .broadcast, none)

/-- `PathTable`. -/
structure PathTable where
  map : Table AddressHash PathEntry

namespace PathTable

/-- `PathTable::next_hop_route`: the next transport, the interface to it and the hops. -/
def nextHopRoute (table : PathTable) (destination : AddressHash) :
    Option (AddressHash × AddressHash × UInt8) :=
  (table.map.lookup destination).map fun entry => (entry.receivedFrom, entry.iface, entry.hops)

/-- `PathTable::handle_inbound_packet`. -/
def handleInboundPacket (table : PathTable) (packet : Packet) (lookup : Option AddressHash) :
    Packet × Option AddressHash :=
  match table.map.lookup (lookup.getD packet.destination) with
  | none => (packet, none)
  | some entry =>
    let (headerType, propagationType, transport) := entry.stamp
    ({ packet with
        header := { packet.header with
          ifacFlag := .opened
          headerType := headerType
          propagationType := propagationType }
        ifac := none
        transport := transport }, some entry.iface)

/-- `PathTable::handle_packet`, which keeps the header of a packet already in transport. -/
def handlePacket (table : PathTable) (packet : Packet) : Packet × Option AddressHash :=
  if packet.header.packetType = .announce then (packet, none)
  else if packet.header.destinationType = .plain ∨ packet.header.destinationType = .group then
    (packet, none)
  else match table.map.lookup packet.destination with
    | none => (packet, none)
    | some entry =>
      if packet.header.headerType = .type2 then (packet, some entry.iface)
      else
        let (headerType, propagationType, transport) := entry.stamp
        ({ packet with
            header := { packet.header with
              headerType := headerType
              propagationType := propagationType }
            transport := transport }, some entry.iface)

/-- `PathTable::refresh`. -/
def refresh (table : PathTable) (now : Instant) (destination : AddressHash) : PathTable :=
  match table.map.lookup destination with
  | none => table
  | some entry => { table with map := table.map.insert destination {
      entry with timestamp := now, expires := now + entry.pathExpiry } }

/-- `PathTable::rebalance_hops`, which only ever shortens a path. -/
def rebalanceHops (table : PathTable) (destination : AddressHash) (newHops : UInt8) : PathTable :=
  match table.map.lookup destination with
  | none => table
  | some entry =>
    if newHops < entry.hops then
      { table with map := table.map.insert destination { entry with hops := newHops } }
    else table

end PathTable

end Reticulum
