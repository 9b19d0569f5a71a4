import ReticulumSdk.Base.Clock
import ReticulumSdk.Cipher

/-! The state of a resource transfer and its two constructors. -/

namespace Reticulum

namespace Resource

/-- The window a transfer starts with. -/
def WINDOW : Nat := 4
/-- The smallest window a transfer starts with. -/
def WINDOW_MIN : Nat := 2
/-- The largest window before the link has shown a fast rate. -/
def WINDOW_MAX_SLOW : Nat := 10
/-- The largest window on a fast link. -/
def WINDOW_MAX_FAST : Nat := 75
/-- The largest window of all. -/
def WINDOW_MAX : Nat := WINDOW_MAX_FAST
/-- Fast rounds needed before the window limit is raised. -/
def FAST_RATE_THRESHOLD : Nat := WINDOW_MAX_SLOW - WINDOW - 2
/-- Bytes per second above which a round counts as fast. -/
def RATE_FAST : Float := 50.0 * 1000.0 / 8.0
/-- The distance kept between the window and its bounds. -/
def WINDOW_FLEXIBILITY : Nat := 4
/-- Bytes of a map hash. -/
def MAPHASH_LEN : Nat := 4
/-- Bytes of a random hash. -/
def RANDOM_HASH_SIZE : Nat := 4
/-- The largest payload that is compressed, and the largest a receiver will decompress. -/
def AUTO_COMPRESS_MAX_SIZE : Nat := 64 * 1024 * 1024
/-- Timeout factor before the first round trip was measured. -/
def PART_TIMEOUT_FACTOR : Float := 4.0
/-- Timeout factor afterwards. -/
def PART_TIMEOUT_FACTOR_AFTER_RTT : Float := 2.0
/-- Timeout factor of the sender. -/
def PROOF_TIMEOUT_FACTOR : Float := 3.0
/-- Timeouts before a transfer fails. -/
def MAX_RETRIES : Nat := 16
/-- Advertisements repeated before a transfer fails. -/
def MAX_ADV_RETRIES : Nat := 4
/-- Seconds the sender always waits. -/
def SENDER_GRACE_TIME : Float := 10.0
/-- Seconds the receiver always waits. -/
def RETRY_GRACE_TIME : Float := 0.25
/-- Seconds added for each retry already spent. -/
def PER_RETRY_DELAY : Float := 0.5
/-- First byte of a request that names no hashmap end. -/
def HASHMAP_IS_NOT_EXHAUSTED : UInt8 := 0x00
/-- First byte of a request that asks for more of the hashmap. -/
def HASHMAP_IS_EXHAUSTED : UInt8 := 0xFF
/-- Bytes of an advertisement beside its hashmap segment. -/
def ADV_OVERHEAD : Nat := 134

end Resource

open Resource

/-- The hash a part is named by in requests. -/
abbrev MapHash := FourBytes

/-- The salt of a resource's map hashes. -/
abbrev RandomHash := FourBytes

/-- `ResourceStatus`. -/
inductive ResourceStatus where
  | none
  | queued
  | advertised
  | transferring
  | awaitingProof
  | assembling
  | complete
  | failed
  | corrupt
  deriving DecidableEq, Repr

/-- Maximum number of hashmap entries per advertisement segment. -/
def hashmapMaxLen (linkMdu : Nat) : Nat := (linkMdu - ADV_OVERHEAD) / MAPHASH_LEN

/-- How far apart two parts may be and still be told apart by their map hashes. -/
def collisionGuardSize (linkMdu : Nat) : Nat := 2 * WINDOW_MAX + hashmapMaxLen linkMdu

/-- `ResourceAdvertisement`. -/
structure ResourceAdvertisement where
  transferSize : Nat
  dataSize : Nat
  numParts : Nat
  hash : Hash
  randomHash : RandomHash
  originalHash : Hash
  hashmap : Bytes
  flags : UInt8
  segmentIndex : Nat
  totalSegments : Nat
  requestId : Option Bytes

/-- `ResourcePart`: one slice of the encrypted payload on the sender's side. -/
structure ResourcePart where
  data : Bytes
  mapHash : MapHash
  sent : Bool

/-- What identifies a resource and never changes after construction. -/
structure ResourceInfo where
  hash : Hash
  randomHash : RandomHash
  originalHash : Hash
  expectedProof : Hash
  size : Nat
  totalSize : Nat
  uncompressedSize : Nat
  compressed : Bool
  encrypted : Bool
  hasMetadata : Bool
  segmentIndex : Nat
  totalSegments : Nat
  split : Bool
  sdu : Nat
  totalParts : Nat
  requestId : Option Bytes
  isResponse : Bool

/-- Window management. -/
structure FlowControl where
  window : Nat
  windowMax : Nat
  windowMin : Nat
  windowFlexibility : Nat
  fastRateRounds : Nat

/-- Timing and round-trip tracking. -/
structure Timing where
  lastActivity : Instant
  rtt : Option Duration
  partTimeoutFactor : Float
  retriesLeft : Nat
  maxRetries : Nat
  maxAdvRetries : Nat
  advSent : Option Instant
  rttRxdBytes : Nat
  reqSent : Option Instant
  reqSentBytes : Nat
  reqResp : Option Instant
  reqRespRttRate : Float
  lastPartSent : Option Instant

/-- `Resource`, with the hashmap held as its four-byte entries. -/
structure Resource where
  info : ResourceInfo
  status : ResourceStatus
  parts : List ResourcePart
  hashmap : List MapHash
  hashmapHeight : Nat
  -- Sender state.
  sentParts : Nat
  receiverMinConsecutiveHeight : Nat
  -- Receiver state.
  receivedParts : List (Option Bytes)
  receivedCount : Nat
  outstandingParts : Nat
  consecutiveCompletedHeight : Int
  waitingForHmu : Bool
  receivingPart : Bool
  flow : FlowControl
  timing : Timing
  -- Hashes of the request packets handled so far, oldest first.
  reqHashlist : List Hash
  assembledPlaintext : Bytes

/-- The hash of a part's bytes under a resource's random hash. -/
def mapHashOf (partData : Bytes) (randomHash : RandomHash) : MapHash :=
  FourBytes.ofBytes (Hash.generate (partData ++ randomHash.toBytes)).bytes

/-- The window every transfer starts with. -/
def FlowControl.initial : FlowControl where
  window := WINDOW
  windowMax := WINDOW_MAX_SLOW
  windowMin := WINDOW_MIN
  windowFlexibility := WINDOW_FLEXIBILITY
  fastRateRounds := 0

/-- The timers every transfer starts with. -/
def Timing.initial (rtt : Option Duration) (now : Instant) : Timing where
  lastActivity := now
  rtt := rtt
  partTimeoutFactor := PART_TIMEOUT_FACTOR
  retriesLeft := MAX_RETRIES
  maxRetries := MAX_RETRIES
  maxAdvRetries := MAX_ADV_RETRIES
  advSent := none
  rttRxdBytes := 0
  reqSent := none
  reqSentBytes := 0
  reqResp := none
  reqRespRttRate := 0.0
  lastPartSent := none

/-- The bzip2 library: an encoder, and a decoder that stops after a number of output bytes. -/
structure Bzip2 where
  encode : Bytes → Option Bytes
  decode : Bytes → Nat → Option Bytes

/-- `bzip2_compress`. -/
def bzip2Compress (bzip2 : Bzip2) (data : Bytes) : Except RnsError Bytes :=
  match bzip2.encode data with
  | some compressed => .ok compressed
  | none => .error .packetError

/-- `bzip2_decompress`, which rejects output larger than the limit. -/
def bzip2Decompress (bzip2 : Bzip2) (data : Bytes) (limit : Nat) : Except RnsError Bytes :=
  match bzip2.decode data (limit + 1) with
  | none => .error .packetError
  | some out => if out.length > limit then .error .packetError else .ok out

/-- The random values a construction draws: the salt, the inline prefix, and salts after collisions. -/
structure Draws where
  randomHash : RandomHash
  inlineRandom : RandomHash
  retries : List RandomHash

/-- The payload to send and whether it is compressed. -/
def choosePayload (bzip2 : Bzip2) (data : Bytes) (autoCompress : Bool) :
    Except RnsError (Bytes × Bool) := do
  if autoCompress && data.length ≤ AUTO_COMPRESS_MAX_SIZE then
    let compressedData ← bzip2Compress bzip2 data
    -- Data that does not get shorter is sent as it is.
    if compressedData.length < data.length then
      return (compressedData, true)
    else
      return (data, false)
  else
    return (data, false)

/-- The slices of the encrypted buffer, every one `sdu` bytes long but the last. -/
def cutParts (encryptedBuf : Bytes) (sdu : Nat) : List Bytes :=
  (List.range ((encryptedBuf.length + sdu - 1) / sdu)).map fun i =>
    (encryptedBuf.take (min (i * sdu + sdu) encryptedBuf.length)).drop (i * sdu)

/-- One attempt at naming the parts, given up when a hash repeats inside the collision guard. -/
def guardedParts (guardSize : Nat) (randomHash : RandomHash) :
    List MapHash → List Bytes → Option (List ResourcePart)
  | _, [] => some []
  | collisionGuard, partData :: rest =>
    let mapHash := mapHashOf partData randomHash
    if mapHash ∈ collisionGuard then none
    else
      -- The guard forgets its oldest hash once it holds more than its size.
      let grown := collisionGuard ++ [mapHash]
      let kept := if grown.length > guardSize then grown.tail else grown
      (guardedParts guardSize randomHash kept rest).map
        ({ data := partData, mapHash := mapHash, sent := false } :: ·)

/-- Attempts with one salt after another; empty while every salt drawn so far collides. -/
def nameParts (guardSize : Nat) (slices : List Bytes) :
    List RandomHash → Option (RandomHash × List ResourcePart)
  | [] => none
  | randomHash :: redraws =>
    match guardedParts guardSize randomHash [] slices with
    | some parts => some (randomHash, parts)
    | none => nameParts guardSize slices redraws

/-- The value `Resource::new` returns once its parts are cut and named. -/
def Resource.outgoing (firstRandomHash randomHash : RandomHash) (data encryptedBuf : Bytes)
    (parts : List ResourcePart) (linkMdu : Nat) (compressed : Bool) (requestId : Option Bytes)
    (isResponse : Bool) (now : Instant) : Resource :=
  let hash := Hash.generate (data ++ randomHash.toBytes)
  { info := {
      hash := hash
      randomHash := randomHash
      -- Computed before the collision loop and not again after it.
      originalHash := Hash.generate (data ++ firstRandomHash.toBytes)
      expectedProof := Hash.generate (data ++ hash.bytes)
      size := encryptedBuf.length
      totalSize := data.length
      uncompressedSize := data.length
      compressed := compressed
      encrypted := true
      hasMetadata := false
      segmentIndex := 1
      totalSegments := 1
      split := false
      sdu := linkMdu
      totalParts := (cutParts encryptedBuf linkMdu).length
      requestId := requestId
      isResponse := isResponse }
    status := .none
    parts := parts
    hashmap := parts.map (·.mapHash)
    hashmapHeight := (cutParts encryptedBuf linkMdu).length
    sentParts := 0
    receiverMinConsecutiveHeight := 0
    receivedParts := []
    receivedCount := 0
    outstandingParts := 0
    consecutiveCompletedHeight := -1
    waitingForHmu := false
    receivingPart := false
    flow := .initial
    timing := .initial none now
    reqHashlist := []
    assembledPlaintext := [] }

/-- `Resource::new`: an outgoing resource, or nothing while the draws given all collide. -/
def Resource.new (bzip2 : Bzip2) (draws : Draws) (data : Bytes) (linkMdu : Nat) (encrypt : Cipher)
    (requestId : Option Bytes) (isResponse autoCompress : Bool) (now : Instant) :
    Outcome (Option (Except RnsError Resource)) :=
  match choosePayload bzip2 data autoCompress with
  | .error fault => .ok (some (.error fault))
  | .ok (payload, compressed) =>
    match encrypt.run (draws.inlineRandom.toBytes ++ payload) with
    | .error fault => .ok (some (.error fault))
    | .ok encryptedBuf =>
      -- `size.div_ceil(sdu)`.
      if linkMdu = 0 then .error .divisionByZero
      else do
        let slices := cutParts encryptedBuf linkMdu
        -- The buffer itself fits in memory, and so does the vector of its parts.
        allocate encryptedBuf.length 1
        allocate slices.length 32
        match nameParts (collisionGuardSize linkMdu) slices (draws.randomHash :: draws.retries) with
        | none => return none
        | some (randomHash, parts) =>
          return some (.ok (Resource.outgoing draws.randomHash randomHash data encryptedBuf parts
            linkMdu compressed requestId isResponse now))

/-- `ResourceAdvertisement::from_resource`. -/
def ResourceAdvertisement.fromResource (resource : Resource) : ResourceAdvertisement :=
  -- A resource with a request id is the request itself or the response to it.
  let info := resource.info
  let isRequest := info.requestId.isSome && !info.isResponse
  let isResponse := info.requestId.isSome && info.isResponse
  { transferSize := info.size
    dataSize := info.totalSize
    numParts := info.totalParts
    hash := info.hash
    randomHash := info.randomHash
    originalHash := info.originalHash
    hashmap := resource.hashmap.flatMap FourBytes.toBytes
    flags := (if info.encrypted then 0x01 else 0) ||| (if info.compressed then 0x02 else 0)
      ||| (if info.split then 0x04 else 0) ||| (if isRequest then 0x08 else 0)
      ||| (if isResponse then 0x10 else 0) ||| (if info.hasMetadata then 0x20 else 0)
    segmentIndex := info.segmentIndex
    totalSegments := info.totalSegments
    requestId := info.requestId }

/-- The hashmap bytes one advertisement segment carries, as `ResourceAdvertisement::pack` cuts them. -/
def ResourceAdvertisement.hashmapSegment (adv : ResourceAdvertisement) (segment linkMdu : Nat) : Bytes :=
  let hml := hashmapMaxLen linkMdu
  let stop := min ((segment + 1) * hml) adv.numParts
  (((FourBytes.chunks adv.hashmap).take stop).drop (segment * hml)).flatMap FourBytes.toBytes

/-- `Resource::new_from_advertisement`: an incoming resource with nothing known or received yet. -/
def Resource.newFromAdvertisement (profile : Profile) (adv : ResourceAdvertisement) (linkMdu : Nat)
    (rtt : Duration) (requestId : Option Bytes) (now : Instant) : Outcome Resource := do
  let totalParts := adv.numParts
  let hashmapBytes ← profile.mul usizeRange totalParts MAPHASH_LEN
  allocate hashmapBytes 1
  -- An empty slot of the receive buffer takes three machine words.
  allocate totalParts 24
  return {
    info := {
      hash := adv.hash
      randomHash := adv.randomHash
      originalHash := adv.originalHash
      expectedProof := Hash.newEmpty
      size := adv.transferSize
      totalSize := adv.dataSize
      uncompressedSize := adv.dataSize
      compressed := adv.flags &&& 0x02 != 0
      encrypted := adv.flags &&& 0x01 != 0
      hasMetadata := adv.flags &&& 0x20 != 0
      segmentIndex := adv.segmentIndex
      totalSegments := adv.totalSegments
      split := adv.flags &&& 0x04 != 0
      sdu := linkMdu
      totalParts := totalParts
      requestId := requestId
      isResponse := adv.flags &&& 0x10 != 0 }
    status := .none
    parts := []
    hashmap := List.replicate totalParts .zero
    hashmapHeight := 0
    sentParts := 0
    receiverMinConsecutiveHeight := 0
    receivedParts := List.replicate totalParts none
    receivedCount := 0
    outstandingParts := 0
    consecutiveCompletedHeight := -1
    waitingForHmu := false
    receivingPart := false
    flow := .initial
    timing := .initial (some rtt) now
    reqHashlist := []
    assembledPlaintext := [] }

end Reticulum
