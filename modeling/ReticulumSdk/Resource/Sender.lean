import ReticulumSdk.Base.Msgpack
import ReticulumSdk.Resource.State

/-! The sending side: answering part requests with parts and hashmap segments. -/

namespace Reticulum

open Resource

/-- A hashmap update: the resource hash followed by a MessagePack body. -/
structure HmuPacket where
  hash : Hash
  body : Value

/-- `ResourceRequestResult`. -/
structure ResourceRequestResult where
  parts : List Bytes
  hmuPacket : Option HmuPacket
  allSent : Bool

namespace Resource

/-- Remember the hash of a request packet, forgetting the oldest beyond the limit. -/
def rememberRequest (r : Resource) : Option Hash → Resource
  | none => r
  | some hash =>
    let grown := r.reqHashlist ++ [hash]
    { r with reqHashlist := grown.drop (grown.length - MAX_RETRIES * 4) }

/-- Whether a request packet was handled before. -/
def seenRequest (r : Resource) : Option Hash → Bool
  | none => false
  | some hash => decide (hash ∈ r.reqHashlist)

/-- The number of distinct parts sent after one more goes out. -/
def countSent (profile : Profile) (sentParts : Nat) (part : ResourcePart) : Outcome Nat :=
  if part.sent then .ok sentParts else profile.add usizeRange sentParts 1

/-- Note that a part goes out, counting it the first time. -/
def markSent (profile : Profile) (r : Resource) (i : Nat) (part : ResourcePart) (now : Instant) :
    Outcome Resource := do
  let sentParts ← countSent profile r.sentParts part
  return { r with
    sentParts := sentParts
    parts := r.parts.set i { part with sent := true }
    timing := { r.timing with lastActivity := now, lastPartSent := some now } }

/-- The loop of `handle_request` that collects the requested parts of the search window. -/
def sendParts (profile : Profile) (mapHashes : List MapHash) (now : Instant) :
    List Nat → Resource → Outcome (Resource × List Bytes)
  | [], r => .ok (r, [])
  | i :: rest, r =>
    match r.parts[i]? with
    -- Behind the last part the loop ends.
    | none => .ok (r, [])
    | some part =>
      if part.mapHash ∈ mapHashes then do
        let r ← markSent profile r i part now
        let (r, later) ← sendParts profile mapHashes now rest r
        return (r, part.data :: later)
      else
        sendParts profile mapHashes now rest r

/-- The part after the one with the given hash, searched in order. -/
def findAfter (parts : List ResourcePart) (lastMapHash : Bytes) : List Nat → Option Nat
  | [] => none
  | i :: rest =>
    match parts[i]? with
    | some part =>
      if part.mapHash.toBytes = lastMapHash then some (i + 1) else findAfter parts lastMapHash rest
    | none => findAfter parts lastMapHash rest

/-- The hashmap segment that starts at a part, as a hashmap update carries it. -/
def segmentFrom (profile : Profile) (r : Resource) (partIndex : Nat) : Outcome HmuPacket := do
  let hml := hashmapMaxLen r.info.sdu
  -- Without room for a single hash, everything is the first segment.
  let segment := if hml > 0 then partIndex / hml else 0
  let hashmapStart ← profile.mul usizeRange segment hml
  let next ← profile.add usizeRange segment 1
  let stop ← profile.mul usizeRange next hml
  let hashmapSeg := (r.hashmap.take (min stop r.info.totalParts)).drop hashmapStart
  return {
    hash := r.info.hash
    body := .array [.integer segment, .binary (hashmapSeg.flatMap FourBytes.toBytes)] }

/-- The hashmap half of `handle_request`, where nothing is asked or the end of a hashmap is named. -/
def answerHashmap (profile : Profile) (r : Resource) (window : List Nat) :
    Option Bytes → Outcome (Resource × Except RnsError (Option HmuPacket))
  | none => .ok (r, .ok none)
  | some lastMapHash =>
    let hml := hashmapMaxLen r.info.sdu
    let partIndex := (findAfter r.parts lastMapHash window).getD r.receiverMinConsecutiveHeight
    -- The search of later requests starts a window before the part that was named.
    let r := { r with receiverMinConsecutiveHeight := partIndex - (1 + WINDOW_MAX) }
    -- A hash in the middle of a segment is answered by giving up.
    if hml > 0 ∧ partIndex % hml ≠ 0 then
      .ok ({ r with status := .failed }, .error .outOfMemory)
    else do
      let hmuPacket ← r.segmentFrom profile partIndex
      return (r, .ok (some hmuPacket))

/-- A part request as the sender reads it: the end of the hashmap, if named, and the hashes. -/
structure PartRequest where
  lastMapHash : Option Bytes
  mapHashes : List MapHash

/-- The checks and cuts `handle_request` makes on the request bytes. -/
def parseRequest (requestData : Bytes) : Outcome (Except RnsError PartRequest) :=
  if requestData.isEmpty then .ok (.error .invalidArgument)
  else do
    let first ← index requestData 0
    if first = HASHMAP_IS_EXHAUSTED then
      if requestData.length < 1 + MAPHASH_LEN + HASH_SIZE then
        return .error .packetError
      -- The last known hash stands in front of the hash of the resource.
      let lastMapHash ← slice requestData 1 (1 + MAPHASH_LEN)
      let requestedHashes ← slice requestData (1 + MAPHASH_LEN + HASH_SIZE) requestData.length
      return .ok { lastMapHash := some lastMapHash, mapHashes := FourBytes.chunks requestedHashes }
    else
      if requestData.length < 1 + HASH_SIZE then
        return .error .packetError
      let requestedHashes ← slice requestData (1 + HASH_SIZE) requestData.length
      return .ok { lastMapHash := none, mapHashes := FourBytes.chunks requestedHashes }

/-- What `handle_request` notes about a well-formed request before it answers. -/
def beginRequest (r : Resource) (now : Instant) : Resource :=
  -- The first request after an advertisement measures the round trip.
  let rtt := match r.timing.advSent, r.timing.rtt with
    | some advSent, none => some (now.durationSince advSent)
    | _, rtt => rtt
  { r with
    status := .transferring
    timing := { r.timing with rtt := rtt, retriesLeft := r.timing.maxRetries } }

/-- The end of `handle_request`: once every part went out, the sender waits for the proof. -/
def finishRequest (r : Resource) (parts : List Bytes) (hmuPacket : Option HmuPacket) :
    Resource × ResourceRequestResult :=
  if r.sentParts ≥ r.info.totalParts then
    ({ r with status := .awaitingProof, timing := { r.timing with retriesLeft := 3 } },
      { parts := parts, hmuPacket := hmuPacket, allSent := true })
  else (r, { parts := parts, hmuPacket := hmuPacket, allSent := false })

/-- The parts the sender looks at when it answers a request. -/
def sendWindow (profile : Profile) (r : Resource) : Outcome (List Nat) := do
  let searchStart := r.receiverMinConsecutiveHeight
  let stop ← profile.add usizeRange searchStart (collisionGuardSize r.info.sdu)
  return List.range' searchStart (min stop r.info.totalParts - searchStart)

/-- The answer to a well-formed request. -/
def answerRequest (profile : Profile) (r : Resource) (request : PartRequest) (now : Instant) :
    Outcome (Resource × Except RnsError ResourceRequestResult) := do
  let window ← r.sendWindow profile
  let (r, parts) ← sendParts profile request.mapHashes now window r
  let (r, answer) ← answerHashmap profile r window request.lastMapHash
  match answer with
  | .error fault => return (r, .error fault)
  | .ok hmuPacket =>
    let (r, result) := r.finishRequest parts hmuPacket
    return (r, .ok result)

/-- `Resource::handle_request`. -/
def handleRequest (profile : Profile) (r : Resource) (requestData : Bytes) (packetHash : Option Hash)
    (now : Instant) : Outcome (Resource × Except RnsError ResourceRequestResult) :=
  if r.status = .failed then .ok (r, .error .linkClosed)
  -- A request that was delivered again is answered with nothing.
  else if r.seenRequest packetHash then
    .ok (r, .ok { parts := [], hmuPacket := none, allSent := false })
  else do
    -- The hash is remembered even if the request turns out malformed.
    let r := r.rememberRequest packetHash
    let parsed ← parseRequest requestData
    match parsed with
    | .error fault => return (r, .error fault)
    | .ok request => answerRequest profile (r.beginRequest now) request now

/-- `Resource::validate_proof`. -/
def validateProof (r : Resource) (proofData : Bytes) : Bool :=
  if proofData.length < HASH_SIZE * 2 then false
  else decide (proofData.drop HASH_SIZE = r.info.expectedProof.bytes)

end Resource

end Reticulum
