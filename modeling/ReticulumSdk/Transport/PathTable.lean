import ReticulumSdk.Destination.Announce

/-! The path table as announces write it: which of them replaces the route to a destination. -/

namespace Reticulum

/-- `MAX_RANDOM_BLOBS`. -/
def MAX_RANDOM_BLOBS : Nat := 64

/-- `ANNOUNCE_RANDOM_BLOB_OFFSET`. -/
def ANNOUNCE_RANDOM_BLOB_OFFSET : Nat := PUBLIC_KEY_LENGTH * 2 + NAME_HASH_LENGTH

/-- `RandomBlob`. -/
abbrev RandomBlob := RandHash

/-- `PathState`. -/
inductive PathState where
  | unknown
  | responsive
  | unresponsive
  deriving DecidableEq

/-- `announce_random_blob`. -/
def announceRandomBlob (packet : Packet) : Option RandomBlob :=
  -- The blob follows the keys and the name hash, in what may be too short to hold it.
  if long : ANNOUNCE_RANDOM_BLOB_OFFSET + RAND_HASH_LENGTH ≤ packet.data.length then
    some ⟨DestinationAnnounce.field packet.data ANNOUNCE_RANDOM_BLOB_OFFSET RAND_HASH_LENGTH,
      DestinationAnnounce.field_length long⟩
  else none

/-- A big-endian number. -/
def ofBeBytes (bytes : Bytes) : Nat := bytes.foldl (fun number byte => number * 256 + byte.toNat) 0

/-- `timebase_from_random_blob`: the last five bytes, below three that are zero. -/
def timebaseFromRandomBlob (blob : RandomBlob) : Nat :=
  ofBeBytes ([0, 0, 0] ++ blob.bytes.drop (RAND_HASH_LENGTH / 2))

/-- `PathEntry`, with the fields by which announces are judged. -/
structure AnnouncedPath extends PathEntry where
  randomBlobs : List RandomBlob
  state : PathState
  ifaceGravity : Int
  ifaceBitrate : Option Float
  announce : Option Packet
  deriving DecidableEq

namespace AnnouncedPath

/-- `PathEntry::timebase`. -/
def timebase (path : AnnouncedPath) : Nat :=
  (path.randomBlobs.map timebaseFromRandomBlob).max?.getD 0

/-- The `prefers_interface` of `should_accept`. -/
def prefersInterface (path : AnnouncedPath) (incomingGravity : Int)
    (incomingBitrate : Option Float) : Bool :=
  -- Only interfaces of the same gravity are compared by their bitrates.
  if incomingGravity ≠ path.ifaceGravity then incomingGravity > path.ifaceGravity
  else match incomingBitrate, path.ifaceBitrate with
    | some incoming, some known => incoming > known
    -- A known bitrate is better than an unknown one, and an unknown one never is.
    | some _, none => true
    | none, _ => false

/-- `PathEntry::should_accept`. -/
def shouldAccept (path : AnnouncedPath) (now : Instant) (hops : UInt8) (randomBlob : RandomBlob)
    (incomingGravity : Int) (incomingBitrate : Option Float) : Bool :=
  let announceEmitted := timebaseFromRandomBlob randomBlob
  let prefersInterface := path.prefersInterface incomingGravity incomingBitrate
  -- The emission was heard before, whenever that was.
  if randomBlob ∈ path.randomBlobs then
    if hops < path.hops then true else hops = path.hops ∧ prefersInterface
  -- A new emission over a way that is no longer, where equal times leave it to the interface.
  else if hops ≤ path.hops then
    if announceEmitted > path.timebase then true
    else announceEmitted = path.timebase ∧ prefersInterface
  -- Over a longer way, an expired entry accepts any emission, even an older one.
  else if now ≥ path.expires then true
  else if announceEmitted > path.timebase then true
  -- Otherwise a path that is known not to respond gives way to one as old.
  else announceEmitted = path.timebase ∧ path.state = .unresponsive

/-- `PathEntry::updated_random_blobs`. -/
def updatedRandomBlobs (path : AnnouncedPath) (randomBlob : Option RandomBlob) : List RandomBlob :=
  let randomBlobs := match randomBlob with
    | some blob =>
      if blob ∈ path.randomBlobs then path.randomBlobs else path.randomBlobs ++ [blob]
    | none => path.randomBlobs
  -- The first blobs are forgotten.
  if randomBlobs.length > MAX_RANDOM_BLOBS then
    randomBlobs.drop (randomBlobs.length - MAX_RANDOM_BLOBS)
  else randomBlobs

end AnnouncedPath

/-- What the interface an announce came over tells of it, and the transport it came through. -/
structure AnnounceRoute where
  transportId : Option AddressHash
  iface : AddressHash
  pathExpiry : Duration
  gravity : Int
  bitrate : Option Float
  deriving DecidableEq

/-- `PathTable`, with whole entries. -/
structure AnnouncedPaths where
  map : Table AddressHash AnnouncedPath
  rerouteEager : Bool

namespace AnnouncedPaths

/-- `PathTable::new`. -/
def new (rerouteEager : Bool) : AnnouncedPaths where
  map := ∅
  rerouteEager := rerouteEager

/-- `PathTable::get`. -/
def get (paths : AnnouncedPaths) (destination : AddressHash) : Option AnnouncedPath :=
  paths.map.lookup destination

/-- `PathTable::would_update_path`. -/
def wouldUpdatePath (paths : AnnouncedPaths) (now : Instant) (announce : Packet)
    (incomingGravity : Int) (incomingBitrate : Option Float) : Bool :=
  let hops := announce.header.hops
  match paths.get announce.destination with
  | none => true
  | some path =>
    match announceRandomBlob announce with
    | some blob => path.shouldAccept now hops blob incomingGravity incomingBitrate
    -- Without a blob only the hops are left to judge by.
    | none => if hops > path.hops then false else paths.rerouteEager || hops < path.hops

/-- The entry that an accepted announce installs. -/
def installed (paths : AnnouncedPaths) (now : Instant) (announce : Packet) (route : AnnounceRoute) :
    AnnouncedPath where
  timestamp := now
  -- An announce that no transport passed on was received from its destination.
  receivedFrom := route.transportId.getD announce.destination
  hops := announce.header.hops
  iface := route.iface
  expires := now + route.pathExpiry
  pathExpiry := route.pathExpiry
  -- The blobs of the entry that is replaced are kept.
  randomBlobs :=
    let randomBlob := announceRandomBlob announce
    match paths.get announce.destination with
    | some path => path.updatedRandomBlobs randomBlob
    | none => randomBlob.toList
  state := .unknown
  ifaceGravity := route.gravity
  ifaceBitrate := route.bitrate
  announce := some announce

/-- `PathTable::handle_announce`: whether the announce updated the path, and the table. -/
def handleAnnounce (paths : AnnouncedPaths) (now : Instant) (announce : Packet)
    (route : AnnounceRoute) : Bool × AnnouncedPaths :=
  if paths.wouldUpdatePath now announce route.gravity route.bitrate then
    (true, { paths with
      map := paths.map.insert announce.destination (paths.installed now announce route) })
  else (false, paths)

/-- A call that changes the entry of one destination, if there is one. -/
def adjust (paths : AnnouncedPaths) (destination : AddressHash)
    (change : AnnouncedPath → AnnouncedPath) : AnnouncedPaths :=
  match paths.get destination with
  | some path => { paths with map := paths.map.insert destination (change path) }
  | none => paths

/-- `PathTable::mark_unresponsive`. -/
def markUnresponsive (paths : AnnouncedPaths) (destination : AddressHash) : AnnouncedPaths :=
  paths.adjust destination fun path => { path with state := .unresponsive }

/-- `PathTable::is_unresponsive`. -/
def isUnresponsive (paths : AnnouncedPaths) (destination : AddressHash) : Bool :=
  (paths.get destination).any fun path => path.state = .unresponsive

/-- `PathTable::next_hop_iface`. -/
def nextHopIface (paths : AnnouncedPaths) (destination : AddressHash) : Option AddressHash :=
  (paths.get destination).map fun path => path.iface

/-- `PathTable::remove`. -/
def remove (paths : AnnouncedPaths) (destination : AddressHash) : AnnouncedPaths :=
  { paths with map := paths.map.erase destination }

/-- `PathTable::drop_all_via`. -/
def dropAllVia (paths : AnnouncedPaths) (via : AddressHash) : AnnouncedPaths :=
  { paths with map := paths.map.retain fun _ path => path.receivedFrom ≠ via }

/-- `PathTable::refresh`. -/
def refresh (paths : AnnouncedPaths) (now : Instant) (destination : AddressHash) : AnnouncedPaths :=
  paths.adjust destination fun path => { path with timestamp := now, expires := now + path.pathExpiry }

/-- `PathTable::rebalance_hops`, which only ever shortens a path. -/
def rebalanceHops (paths : AnnouncedPaths) (destination : AddressHash) (newHops : UInt8) :
    AnnouncedPaths :=
  if (paths.get destination).any fun path => newHops < path.hops then
    paths.adjust destination fun path => { path with hops := newHops }
  else paths

/-- `PathTable::remove_stale`. -/
def removeStale (paths : AnnouncedPaths) (now : Instant) (isActiveIface : AddressHash → Bool) :
    AnnouncedPaths :=
  -- A path goes when it expires, and when its interface does.
  { paths with map := paths.map.retain fun _ path => ¬ now ≥ path.expires ∧ isActiveIface path.iface }

/-- The table as routing reads it. -/
def routes (paths : AnnouncedPaths) : PathTable := ⟨paths.map.mapValues fun _ path => path.toPathEntry⟩

end AnnouncedPaths

/-- A blob of a random byte and an emission time below 256 seconds, for concrete runs. -/
def RandHash.sample (random emitted : UInt8) : RandHash where
  bytes := List.replicate 5 random ++ [0, 0, 0, 0, emitted]
  length_eq := rfl

/-- An announce that carries a blob and nothing else, for concrete runs. -/
def Packet.emission (hops : UInt8) (blob : RandHash) : Packet where
  header := { packetType := .announce, hops := hops }
  destination := .filled 1
  transport := none
  context := .none
  data := List.replicate ANNOUNCE_RANDOM_BLOB_OFFSET 0 ++ blob.bytes

/-- A route over one interface, for concrete runs. -/
def AnnounceRoute.sample (iface : UInt8) : AnnounceRoute where
  transportId := some (.filled 2)
  iface := .filled iface
  pathExpiry := 1000
  gravity := 0
  bitrate := none

end Reticulum
