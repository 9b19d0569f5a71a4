import ReticulumSdk.Transport.Receive

/-! Path requests: what one asks for, which are answered once, and which are passed on. -/

namespace Reticulum

/-- `PATH_REQUEST_TIMEOUT`. -/
def PATH_REQUEST_TIMEOUT : Duration := 15 * nanosPerSec

/-- `PATH_REQUEST_GATE_TIMEOUT`. -/
def PATH_REQUEST_GATE_TIMEOUT : Duration := 120 * nanosPerSec

/-- `MAX_DISCOVERY_PATH_REQUEST_TAGS`. -/
def MAX_DISCOVERY_PATH_REQUEST_TAGS : Nat := 32000

/-- `TagBytes`. -/
abbrev TagBytes := Bytes

/-- `PathRequest`. -/
structure PathRequest where
  destination : AddressHash
  requestingTransport : Option AddressHash
  tagBytes : TagBytes
  deriving DecidableEq

open DestinationAnnounce in
/-- `PathRequest::decode`: a destination, a transport where there is room for one, and a tag. -/
def PathRequest.decode (data : Bytes) : Option PathRequest :=
  if long : ADDRESS_HASH_SIZE < data.length then
    let destination : AddressHash := ⟨field data 0 ADDRESS_HASH_SIZE, field_length (by omega)⟩
    -- Only what is longer than two addresses names the transport that asks.
    if transported : ADDRESS_HASH_SIZE * 2 < data.length then
      some {
        destination := destination
        requestingTransport :=
          some ⟨field data ADDRESS_HASH_SIZE ADDRESS_HASH_SIZE, field_length (by omega)⟩
        tagBytes := field data (ADDRESS_HASH_SIZE * 2) ADDRESS_HASH_SIZE }
    else
      some {
        destination := destination
        requestingTransport := none
        tagBytes := field data ADDRESS_HASH_SIZE ADDRESS_HASH_SIZE }
  else none

/-- `DiscoveryPathRequest`. -/
structure DiscoveryPathRequest where
  timeout : Instant
  requestingIface : AddressHash
  deriving DecidableEq

/-- `PathRequests`. -/
structure PathRequests where
  cache : Table (AddressHash × TagBytes) Instant
  cacheOrder : List (AddressHash × TagBytes)
  transportId : Option AddressHash
  discovery : Table AddressHash DiscoveryPathRequest

namespace PathRequests

/-- `PathRequests::new`. -/
def new (transportId : Option AddressHash) : PathRequests where
  cache := ∅
  cacheOrder := []
  transportId := transportId
  discovery := ∅

/-- `release_expired`. -/
def releaseExpired (requests : PathRequests) (now : Instant) : PathRequests :=
  let cache := requests.cache.retain fun _ expires => expires > now
  { requests with
    cache := cache
    discovery := requests.discovery.retain fun _ request => request.timeout > now
    -- The order may name tags that are gone, until they come first.
    cacheOrder := requests.cacheOrder.dropWhile fun tag => tag ∉ cache }

/-- The loop of `enforce_cache_limit`: the first tags in the order go until the rest fits. -/
def enforceCacheLimit (cache : Table (AddressHash × TagBytes) Instant) :
    List (AddressHash × TagBytes) →
      Table (AddressHash × TagBytes) Instant × List (AddressHash × TagBytes)
  | [] => (cache, [])
  | tag :: order =>
    if cache.size > MAX_DISCOVERY_PATH_REQUEST_TAGS then enforceCacheLimit (cache.erase tag) order
    else (cache, tag :: order)

/-- `PathRequests::decode`: the request, unless it is malformed or was there before. -/
def decode (requests : PathRequests) (now : Instant) (data : Bytes) :
    Option PathRequest × PathRequests :=
  match PathRequest.decode data with
  | none => (none, requests)
  | some request =>
    let released := requests.releaseExpired now
    let tag := (request.destination, request.tagBytes)
    -- The same request came before, over whichever interface.
    if tag ∈ released.cache then (none, released)
    else
      let (cache, cacheOrder) := enforceCacheLimit
        (released.cache.insert tag (now + PATH_REQUEST_GATE_TIMEOUT)) (released.cacheOrder ++ [tag])
      (some request, { released with cache := cache, cacheOrder := cacheOrder })

/-- `generate`, with the tag that is given or drawn. -/
def generate (requests : PathRequests) (destination : AddressHash) (tag : TagBytes) : Packet where
  header := { destinationType := .plain, packetType := .data }
  destination := fixedDestPathRequests
  transport := requests.transportId
  context := .none
  data := destination.bytes ++ requests.transportId.elim [] (·.bytes) ++ tag

/-- `allow_recursive`: no discovery of the destination is pending, and this one is from now on. -/
def allowRecursive (requests : PathRequests) (now : Instant) (destination requestingIface : AddressHash) :
    Bool × PathRequests :=
  if (requests.discovery.lookup destination).any fun request => request.timeout > now then
    (false, requests)
  else (true, { requests with
    discovery := requests.discovery.insert destination ⟨now + PATH_REQUEST_TIMEOUT, requestingIface⟩ })

/-- `take_discovery`: the interface that waits for an announce of the destination. -/
def takeDiscovery (requests : PathRequests) (now : Instant) (destination : AddressHash) :
    Option AddressHash × PathRequests :=
  match requests.discovery.lookup destination with
  | none => (none, requests)
  | some request =>
    -- The discovery ends either way, and is answered only in time.
    (if request.timeout > now then some request.requestingIface else none,
      { requests with discovery := requests.discovery.erase destination })

/-- `generate_recursive`. -/
def generateRecursive (requests : PathRequests) (now : Instant)
    (destination requestingIface : AddressHash) (tag : TagBytes) : Option Packet × PathRequests :=
  let (allowed, after) := requests.allowRecursive now destination requestingIface
  (if allowed then some (after.generate destination tag) else none, after)

end PathRequests

end Reticulum
