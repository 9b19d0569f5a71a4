import ReticulumSdk.Destination.Announce
import ReticulumSdk.Transport.Discovery

/-! The job that announces a node's own interfaces for discovery, and what it makes of one. -/

namespace Reticulum

/-- `DISCOVERY_DEFAULT_ANNOUNCE_INTERVAL`. -/
def DISCOVERY_DEFAULT_ANNOUNCE_INTERVAL : Duration := 6 * 60 * 60 * nanosPerSec

/-- `DISCOVERY_MIN_ANNOUNCE_INTERVAL`. -/
def DISCOVERY_MIN_ANNOUNCE_INTERVAL : Duration := 5 * 60 * nanosPerSec

/-- The rest of a `DiscoveryInterfaceConfig`: how often it is announced, and at what cost. -/
structure AnnounceTerms where
  announceInterval : Duration := DISCOVERY_DEFAULT_ANNOUNCE_INTERVAL
  stampCost : Nat := DEFAULT_STAMP_COST

namespace AnnounceTerms

/-- `with_announce_interval`. -/
def withAnnounceInterval (terms : AnnounceTerms) (interval : Duration) : AnnounceTerms :=
  { terms with announceInterval := max interval DISCOVERY_MIN_ANNOUNCE_INTERVAL }

/-- `with_stamp_cost`. -/
def withStampCost (terms : AnnounceTerms) (stampCost : Nat) : AnnounceTerms :=
  { terms with stampCost := stampCost }

end AnnounceTerms

/-- `RegisteredDiscoveryInterface`, whose last announce may lie before the first reading of the clock. -/
structure RegisteredDiscoveryInterface where
  config : DiscoveryInterfaceConfig
  terms : AnnounceTerms
  lastAnnounce : Int

namespace RegisteredDiscoveryInterface

/-- `RegisteredDiscoveryInterface::new`: due at once. -/
def new (config : DiscoveryInterfaceConfig) (terms : AnnounceTerms) (now : Instant) :
    RegisteredDiscoveryInterface where
  config := config
  terms := terms
  lastAnnounce := (now : Int) - (terms.announceInterval : Int)

/-- `Instant::duration_since`, since the last announce. -/
def elapsed (registered : RegisteredDiscoveryInterface) (now : Instant) : Duration :=
  ((now : Int) - registered.lastAnnounce).toNat

/-- `is_due`. -/
def isDue (registered : RegisteredDiscoveryInterface) (now : Instant) : Bool :=
  registered.elapsed now ≥ registered.terms.announceInterval

end RegisteredDiscoveryInterface

/-- `discoverable_ifaces`. -/
abbrev DiscoverableIfaces : Type := Table AddressHash RegisteredDiscoveryInterface

/-- `generate_stamp`, empty while none of the random bytes it drew makes a valid stamp. -/
def generateStamp (codec : Msgpack.Codec) (hkdf : HkdfSha256) (material : Bytes) (stampCost expandRounds : Nat)
    (random : List Hash) : Except RnsError (Option Hash) := do
  let workblock ← stampWorkblock codec hkdf material expandRounds
  return random.find? fun stamp => stampValid stamp.bytes stampCost workblock

/-- `build_app_data`: a byte of flags, the packed dictionary, and a stamp for its hash. -/
def DiscoveryInterfaceConfig.buildAppData (codec : Msgpack.Codec) (hkdf : HkdfSha256)
    (config : DiscoveryInterfaceConfig) (stampCost : Nat) (version : String) (transportEnabled : Bool)
    (transportId : AddressHash) (random : List Hash) : Except RnsError (Option Bytes) :=
  match codec.writeValue (.map (config.info version transportEnabled transportId)) with
  | none => .error .packetError
  | some packed => do
    let infohash := Hash.generate packed
    let stamp ← generateStamp codec hkdf infohash.bytes stampCost WORKBLOCK_EXPAND_ROUNDS random
    return stamp.map fun stamp => 0 :: (packed ++ stamp.bytes)

/-- The name of `create_discovery_destination`. -/
def discoveryName : DestinationName := ⟨.generate "rnstransport.discovery.interface".toUTF8.toList⟩

/-- `create_discovery_destination`. -/
def createDiscoveryDestination (agreement : KeyAgreement) (privateKey : SecretKey) (signKey : SigningKey) :
    LocalDestination agreement :=
  .new agreement privateKey signKey discoveryName

/-- `is_discovery_destination`, of the name a destination was announced with. -/
def isDiscoveryDestination (name : DestinationName) : Bool :=
  name.asNameHashSlice = discoveryName.asNameHashSlice

/-- The parts of a `TransportHandler` that it announces interfaces with. -/
structure DiscoveryNode (agreement : KeyAgreement) where
  retransmit : Bool
  discoveryDestination : LocalDestination agreement
  discoverableIfaces : DiscoverableIfaces

/-- What `build_discovery_packet` draws and reads. -/
structure DiscoveryDraw where
  now : Instant
  stamps : List Hash
  random : Hash
  timestampSecs : UInt64

namespace DiscoveryNode

variable {agreement : KeyAgreement}

/-- `register_discoverable_interface`. -/
def register (node : DiscoveryNode agreement) (iface : AddressHash) (config : DiscoveryInterfaceConfig)
    (terms : AnnounceTerms) (now : Instant) : DiscoveryNode agreement :=
  { node with discoverableIfaces := node.discoverableIfaces.insert iface (.new config terms now) }

/-- `unregister_discoverable_interface`. -/
def unregister (node : DiscoveryNode agreement) (iface : AddressHash) : DiscoveryNode agreement :=
  { node with discoverableIfaces := node.discoverableIfaces.erase iface }

/-- `build_discovery_packet`, which counts as an announce even where it fails. -/
def buildDiscoveryPacket (codec : Msgpack.Codec) (hkdf : HkdfSha256) (version : String)
    (node : DiscoveryNode agreement) (draw : DiscoveryDraw) (iface : AddressHash) :
    Except RnsError (Option Packet) × DiscoveryNode agreement :=
  match node.discoverableIfaces.lookup iface with
  | none => (.error .invalidArgument, node)
  | some registered =>
    let built := registered.config.buildAppData codec hkdf registered.terms.stampCost version node.retransmit
      node.discoveryDestination.desc.identity.addressHash draw.stamps
    (built.map (·.map fun appData => node.discoveryDestination.announce draw.random draw.timestampSecs appData),
      { node with discoverableIfaces :=
          node.discoverableIfaces.insert iface { registered with lastAnnounce := draw.now } })

end DiscoveryNode

/-- The loop of `handle_discovery`: of those that are due, one that has waited longest. -/
def selectDue (now : Instant) : List (AddressHash × RegisteredDiscoveryInterface) →
    Option (AddressHash × Duration) → Option (AddressHash × Duration)
  | [], selected => selected
  | (iface, discovery) :: rest, selected =>
    if ¬ discovery.isDue now then selectDue now rest selected
    else
      let elapsed := discovery.elapsed now
      selectDue now rest <| match selected with
        | none => some (iface, elapsed)
        | some (earlier, selectedElapsed) =>
          if elapsed > selectedElapsed then some (iface, elapsed) else some (earlier, selectedElapsed)

/-- The interface that `handle_discovery` announces. -/
def DiscoverableIfaces.selected (ifaces : DiscoverableIfaces) (now : Instant) : Option AddressHash :=
  (selectDue now (ifaces.entries.map fun entry => (entry.1, entry.2)) none).map Prod.fst

/-- `handle_discovery`: what it sends, once a stamp is found. -/
def DiscoveryNode.handleDiscovery {agreement : KeyAgreement} (codec : Msgpack.Codec) (hkdf : HkdfSha256)
    (version : String) (node : DiscoveryNode agreement) (now : Instant) (draw : DiscoveryDraw) :
    List Packet × DiscoveryNode agreement :=
  match node.discoverableIfaces.selected now with
  | none => ([], node)
  | some iface =>
    match node.buildDiscoveryPacket codec hkdf version draw iface with
    | (.ok (some packet), after) => ([packet], after)
    | (_, after) => ([], after)

end Reticulum
