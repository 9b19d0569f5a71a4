import ReticulumSdk.Base.Msgpack
import ReticulumSdk.Resource.State

/-! The receiving side: hashmap segments, part requests, placing parts, assembly and proof. -/

namespace Reticulum

open Resource

namespace Resource

/-- The height after one more hash, which grows when the slot it goes to was still zero. -/
def nextHeight (profile : Profile) (height : Nat) (stored : MapHash) : Outcome Nat :=
  if stored.isZero then profile.add usizeRange height 1 else .ok height

/-- The loop of `apply_hashmap` from the `i`-th hash of a segment on. -/
def applyHashes (profile : Profile) (segment hml : Nat) :
    Nat → List MapHash → Resource → Outcome Resource
  | _, [], r => .ok r
  | i, mapHash :: rest, r => do
    let base ← profile.mul usizeRange segment hml
    let idx ← profile.add usizeRange i base
    -- A hash beyond the last part is skipped, and the loop goes on.
    if idx < r.info.totalParts then
      let stored ← index r.hashmap idx
      let height ← nextHeight profile r.hashmapHeight stored
      applyHashes profile segment hml (i + 1) rest
        { r with hashmapHeight := height, hashmap := r.hashmap.set idx mapHash }
    else
      applyHashes profile segment hml (i + 1) rest r

/-- `Resource::apply_hashmap`. -/
def applyHashmap (profile : Profile) (r : Resource) (segment : Nat) (hashmapData : Bytes) :
    Outcome (Resource × Except RnsError Unit) := do
  let hml := hashmapMaxLen r.info.sdu
  if hml = 0 then
    return (r, .error .outOfMemory)
  let r ← applyHashes profile segment hml 0 (FourBytes.chunks hashmapData) r
  return ({ r with waitingForHmu := false }, .ok ())

/-- The loop of `build_request`: the hashes to ask for and whether the hashmap ran out. -/
def scanWindow (r : Resource) : List Nat → List MapHash → Outcome (List MapHash × Bool)
  | [], requested => .ok (requested, false)
  | pn :: rest, requested => do
    let part ← index r.receivedParts pn
    if part.isNone then
      let partHash ← index r.hashmap pn
      -- A zero hash counts as one that is not known yet.
      if partHash.isZero then
        return (requested, true)
      -- The request is full once it names as many parts as the window allows.
      else if requested.length + 1 ≥ r.flow.window then
        return (requested ++ [partHash], false)
      else
        scanWindow r rest (requested ++ [partHash])
    else if requested.length ≥ r.flow.window then
      return (requested, false)
    else
      scanWindow r rest requested

/-- The part numbers from `searchStart` that the window covers. -/
def windowFrom (profile : Profile) (r : Resource) (searchStart : Nat) : Outcome (List Nat) := do
  let stop ← profile.add usizeRange searchStart r.flow.window
  return List.range' searchStart (min stop r.info.totalParts - searchStart)

/-- The last hash counted as known, which tells the sender where the hashmap ran out. -/
def lastKnownHash (profile : Profile) (r : Resource) : Outcome Bytes :=
  -- The height counts hashes in the order they came, and is taken for a place among them.
  if r.hashmapHeight > 0 then do
    let lastPos ← profile.mul usizeRange (r.hashmapHeight - 1) MAPHASH_LEN
    let last ← index r.hashmap (lastPos / MAPHASH_LEN)
    return last.toBytes
  else .ok []

/-- `Resource::build_request`: a part request for the next window of missing parts. -/
def buildRequest (profile : Profile) (r : Resource) : Outcome (Resource × Except RnsError Bytes) :=
  if r.waitingForHmu then .ok (r, .error .invalidArgument)
  else do
    -- The window starts behind the parts that are complete.
    let height ← profile.addSigned r.consecutiveCompletedHeight 1
    let window ← r.windowFrom profile (asUsize height)
    let (requested, exhausted) ← scanWindow r window []
    let body := r.info.hash.bytes ++ requested.flatMap FourBytes.toBytes
    if exhausted then
      let lastHash ← r.lastKnownHash profile
      return ({ r with outstandingParts := requested.length, waitingForHmu := true },
        .ok (HASHMAP_IS_EXHAUSTED :: (lastHash ++ body)))
    else
      return ({ r with outstandingParts := requested.length },
        .ok (HASHMAP_IS_NOT_EXHAUSTED :: body))

/-- `Resource::start_receive`: apply the advertised hashmap and build the first request. -/
def startReceive (profile : Profile) (r : Resource) (initialHashmap : Bytes) (now : Instant) :
    Outcome (Resource × Except RnsError Bytes) := do
  let r := { r with status := .transferring, timing := { r.timing with lastActivity := now } }
  let (r, applied) ← applyHashmap profile r 0 initialHashmap
  match applied with
  | .error fault => return (r, .error fault)
  | .ok () => buildRequest profile r

end Resource

/-- The window growth of `receive_part`, taken when the last outstanding part arrives. -/
def FlowControl.grow (profile : Profile) (flow : FlowControl) : Outcome FlowControl := do
  let window ← profile.add usizeRange flow.window 1
  let gap ← profile.sub usizeRange window flow.windowMin
  let slack ← profile.sub usizeRange flow.windowFlexibility 1
  -- The lower limit follows once the window is far enough above it.
  if gap > slack then
    let windowMin ← profile.add usizeRange flow.windowMin 1
    return { flow with window := window, windowMin := windowMin }
  else
    return { flow with window := window }

/-- The growth step of `receive_part`, skipped while parts are outstanding or at the limit. -/
def FlowControl.growWhenIdle (profile : Profile) (flow : FlowControl) (outstandingParts : Nat) :
    Outcome FlowControl :=
  if outstandingParts = 0 ∧ flow.window < flow.windowMax then flow.grow profile else .ok flow

/-- One more fast round, raising the window limit when the threshold is reached. -/
def FlowControl.countFastRound (profile : Profile) (flow : FlowControl) (rate : Float) :
    Outcome FlowControl :=
  if rate > RATE_FAST ∧ flow.fastRateRounds < FAST_RATE_THRESHOLD then do
    let rounds ← profile.add usizeRange flow.fastRateRounds 1
    return { flow with
      fastRateRounds := rounds
      -- Only the round that reaches the threshold raises the limit.
      windowMax := if rounds = FAST_RATE_THRESHOLD then WINDOW_MAX_FAST else flow.windowMax }
  else .ok flow

namespace Resource

/-- The first response to a request measures its rate and may promote the window. -/
def measureResponse (profile : Profile) (r : Resource) (partLen : Nat) (now : Instant) :
    Outcome Resource :=
  match r.timing.reqResp, r.timing.reqSent with
  | none, some reqSent => do
    let rttSecs := (now.durationSince reqSent).asSecsF64
    -- Only the first part after a request is measured.
    let timing := { r.timing with
      reqResp := some now, partTimeoutFactor := PART_TIMEOUT_FACTOR_AFTER_RTT }
    if rttSecs > 0.0 then
      let cost ← profile.add usizeRange partLen r.timing.reqSentBytes
      let rate := (UInt64.ofNat cost).toFloat / rttSecs
      let flow ← r.flow.countFastRound profile rate
      return { r with timing := { timing with reqRespRttRate := rate }, flow := flow }
    else
      return { r with timing := timing }
  | _, _ => .ok r

/-- The loop that extends the completed prefix over parts received earlier. -/
def advanceHeight (profile : Profile) (receivedParts : List (Option Bytes)) (totalParts : Nat) :
    Nat → Int → Outcome Int
  -- The fuel is the number of parts, which the loop cannot outrun.
  | 0, height => .ok height
  | fuel + 1, height => do
    let cp ← profile.addSigned height 1
    if asUsize cp < totalParts then
      let slot ← index receivedParts (asUsize cp)
      if slot.isSome then advanceHeight profile receivedParts totalParts fuel cp else .ok height
    else .ok height

/-- Store a part in its slot and update the counters, the completed prefix and the window. -/
def acceptPart (profile : Profile) (r : Resource) (i : Nat) (partData : Bytes) : Outcome Resource := do
  let rttRxdBytes ← profile.add usizeRange r.timing.rttRxdBytes partData.length
  let receivedCount ← profile.add usizeRange r.receivedCount 1
  let receivedParts := r.receivedParts.set i (some partData)
  let outstandingParts := r.outstandingParts - 1
  let next ← profile.addSigned r.consecutiveCompletedHeight 1
  -- The prefix grows by this part only if it continues it.
  let height := if (i : Int) = next then (i : Int) else r.consecutiveCompletedHeight
  let height ← advanceHeight profile receivedParts r.info.totalParts r.info.totalParts height
  let flow ← r.flow.growWhenIdle profile outstandingParts
  return { r with
    receivedParts := receivedParts
    receivedCount := receivedCount
    outstandingParts := outstandingParts
    consecutiveCompletedHeight := height
    flow := flow
    timing := { r.timing with rttRxdBytes := rttRxdBytes } }

/-- The search loop of `receive_part`: the first empty slot of the window with the part's hash. -/
def placePart (profile : Profile) (r : Resource) (partHash : MapHash) (partData : Bytes) :
    List Nat → Outcome (Resource × Bool)
  | [] => .ok (r, false)
  | i :: rest =>
    match r.hashmap[i]? with
    -- A place behind the end of the hashmap holds no hash to compare.
    | none => placePart profile r partHash partData rest
    | some stored =>
      if stored = partHash then do
        let slot ← index r.receivedParts i
        if slot.isNone then
          let r ← acceptPart profile r i partData
          return (r, true)
        else
          placePart profile r partHash partData rest
      else
        placePart profile r partHash partData rest

/-- The part of `receive_part` after its timers: check the status, search the window, place. -/
def searchPart (profile : Profile) (r : Resource) (partData : Bytes) : Outcome (Resource × Bool) :=
  -- A transfer that failed takes no parts, and any other is set going again.
  if r.status = .failed then .ok (r, false)
  else do
    let r := { r with status := .transferring }
    let height ← profile.addSigned r.consecutiveCompletedHeight 1
    let window ← r.windowFrom profile (asUsize (max 0 height))
    placePart profile r (mapHashOf partData r.info.randomHash) partData window

/-- `Resource::receive_part`: whether the part was accepted. -/
def receivePart (profile : Profile) (r : Resource) (partData : Bytes) (now : Instant) :
    Outcome (Resource × Bool) := do
  let r := { r with
    receivingPart := true
    timing := { r.timing with lastActivity := now, retriesLeft := r.timing.maxRetries } }
  let r ← measureResponse profile r partData.length now
  let (r, found) ← searchPart profile r partData
  return ({ r with receivingPart := false }, found)

/-- `Resource::all_parts_received`. -/
def allPartsReceived (r : Resource) : Bool := r.receivedCount ≥ r.info.totalParts

/-- The received stream, as long as no slot is empty. -/
def joinParts : List (Option Bytes) → Option Bytes
  | [] => some []
  | some data :: rest => (joinParts rest).map (data ++ ·)
  | none :: _ => none

/-- The work of `assemble` once its stream buffer is allocated. -/
def assembleStream (bzip2 : Bzip2) (r : Resource) (decrypt : Cipher) :
    Resource × Except RnsError Bytes :=
  let r := { r with status := .assembling }
  let corrupt : Resource × Except RnsError Bytes :=
    ({ r with status := .corrupt }, .error .packetError)
  match joinParts r.receivedParts with
  | none => corrupt
  | some stream =>
    -- A stream that does not decrypt leaves the status at assembling.
    match (if r.info.encrypted then decrypt.run stream else .ok stream) with
    | .error fault => (r, .error fault)
    | .ok decrypted =>
      -- The random bytes in front are stripped.
      if decrypted.length < RANDOM_HASH_SIZE then corrupt
      else
        let payload := decrypted.drop RANDOM_HASH_SIZE
        match (if r.info.compressed then bzip2Decompress bzip2 payload AUTO_COMPRESS_MAX_SIZE
            else .ok payload) with
        | .error fault => (r, .error fault)
        | .ok plaintext =>
          -- Only a resource of one segment tells how long it was before compression.
          if r.info.compressed && decide (r.info.totalSegments ≤ 1)
              && plaintext.length != r.info.uncompressedSize then corrupt
          else if Hash.generate (plaintext ++ r.info.randomHash.toBytes) ≠ r.info.hash then corrupt
          else ({ r with assembledPlaintext := plaintext }, .ok plaintext)

/-- `Resource::assemble`: join, decrypt, strip, decompress and verify. -/
def assemble (bzip2 : Bzip2) (r : Resource) (decrypt : Cipher) :
    Outcome (Resource × Except RnsError Bytes) := do
  allocate r.info.size 1
  return assembleStream bzip2 r decrypt

/-- `Resource::build_proof`. -/
def buildProof (r : Resource) : Bytes :=
  r.info.hash.bytes ++ (Hash.generate (r.assembledPlaintext ++ r.info.hash.bytes)).bytes

end Resource

end Reticulum
