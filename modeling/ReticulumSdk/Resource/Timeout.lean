import ReticulumSdk.Base.Run
import ReticulumSdk.Resource.Receiver
import ReticulumSdk.Resource.Sender

/-! Timeouts, retries and the operations a driver runs on a resource. -/

namespace Reticulum

open Resource

/-- `ResourceTimeoutAction`. -/
inductive ResourceTimeoutAction where
  | none
  | retryPartRequest (request : Bytes)
  | retryAdvertisement
  | retryProof
  | failed
  deriving DecidableEq, Repr

/-- The window shrink of `check_timeout`. -/
def FlowControl.shrink (profile : Profile) (flow : FlowControl) : Outcome FlowControl :=
  if flow.window > flow.windowMin then do
    let window ← profile.sub usizeRange flow.window 1
    if flow.windowMax > flow.windowMin then
      let windowMax ← profile.sub usizeRange flow.windowMax 1
      let gap ← profile.sub usizeRange windowMax window
      let slack ← profile.sub usizeRange flow.windowFlexibility 1
      -- The upper limit follows once it is far enough above the window, by one more.
      if gap > slack then
        let windowMax ← profile.sub usizeRange windowMax 1
        return { flow with window := window, windowMax := windowMax }
      else
        return { flow with window := window, windowMax := windowMax }
    else
      return { flow with window := window }
  else .ok flow

namespace Resource

/-- `Resource::part_timeout`. -/
def partTimeout (r : Resource) : Outcome Duration :=
  let rtt := (r.timing.rtt.getD nanosPerSec).asSecsF64
  let outstanding := (UInt64.ofNat (max r.outstandingParts 1)).toFloat
  let retriesUsed := (UInt64.ofNat (r.timing.maxRetries - r.timing.retriesLeft)).toFloat
  let extraWait := retriesUsed * PER_RETRY_DELAY
  let expected := r.timing.partTimeoutFactor * outstanding * rtt
  Duration.fromSecsF64 (expected + RETRY_GRACE_TIME + extraWait)

/-- `Resource::sender_timeout`. -/
def senderTimeout (r : Resource) : Outcome Duration :=
  let rtt := (r.timing.rtt.getD nanosPerSec).asSecsF64
  Duration.fromSecsF64 (rtt * PROOF_TIMEOUT_FACTOR + SENDER_GRACE_TIME)

/-- Whether the clock has reached the deadline a wait gives, an unrepresentable one counting. -/
def expired (since : Instant) (wait : Duration) (now : Instant) : Bool :=
  match since.checkedAdd wait with
  | none => true
  | some deadline => now ≥ deadline

/-- A timeout of the sender's advertisement. -/
def retryAdvertisement (profile : Profile) (r : Resource) :
    Outcome (Resource × Except RnsError ResourceTimeoutAction) :=
  if r.timing.maxAdvRetries = 0 then .ok ({ r with status := .failed }, .ok .failed)
  else do
    let maxAdvRetries ← profile.sub usizeRange r.timing.maxAdvRetries 1
    return ({ r with timing := { r.timing with maxAdvRetries := maxAdvRetries } },
      .ok .retryAdvertisement)

/-- A timeout while parts are transferred: shrink the window and ask again. -/
def retryPartRequest (profile : Profile) (r : Resource) :
    Outcome (Resource × Except RnsError ResourceTimeoutAction) :=
  if r.timing.retriesLeft = 0 then .ok ({ r with status := .failed }, .ok .failed)
  else do
    let retriesLeft ← profile.sub usizeRange r.timing.retriesLeft 1
    let flow ← r.flow.shrink profile
    -- A request that waits for a hashmap update is made again as well.
    let (r, request) ← buildRequest profile { r with
      flow := flow, waitingForHmu := false, timing := { r.timing with retriesLeft := retriesLeft } }
    return (r, request.map .retryPartRequest)

/-- A timeout while the sender waits for the proof. -/
def retryProof (profile : Profile) (r : Resource) :
    Outcome (Resource × Except RnsError ResourceTimeoutAction) :=
  if r.timing.retriesLeft = 0 then .ok ({ r with status := .failed }, .ok .failed)
  else do
    let retriesLeft ← profile.sub usizeRange r.timing.retriesLeft 1
    return ({ r with timing := { r.timing with retriesLeft := retriesLeft } }, .ok .retryProof)

/-- `Resource::check_timeout`. -/
def checkTimeout (profile : Profile) (r : Resource) (now : Instant) :
    Outcome (Resource × Except RnsError ResourceTimeoutAction) :=
  match r.status with
  -- The advertisement is timed from when it was sent, if it was.
  | .advertised => do
    let wait ← r.senderTimeout
    if expired (r.timing.advSent.getD r.timing.lastActivity) wait now then
      r.retryAdvertisement profile
    else
      return (r, .ok .none)
  -- A transfer is timed from the last part that came or went.
  | .transferring => do
    let wait ← r.partTimeout
    if expired r.timing.lastActivity wait now then
      r.retryPartRequest profile
    else
      return (r, .ok .none)
  | .awaitingProof => do
    let wait ← r.senderTimeout
    if expired (r.timing.lastPartSent.getD r.timing.lastActivity) wait now then
      r.retryProof profile
    else
      return (r, .ok .none)
  | _ => .ok (r, .ok .none)

/-- One call a driver can make on a resource, with its arguments and clock reading. -/
inductive Op where
  | startReceive (initialHashmap : Bytes) (now : Instant)
  | applyHashmap (segment : Nat) (hashmapData : Bytes)
  | buildRequest
  | receivePart (partData : Bytes) (now : Instant)
  | handleRequest (requestData : Bytes) (packetHash : Option Hash) (now : Instant)
  | setStatus (status : ResourceStatus)
  | checkTimeout (now : Instant)

/-- The resource after a call, or the panic that stopped it. -/
def perform (profile : Profile) (r : Resource) : Op → Outcome Resource
  | .startReceive initialHashmap now => Prod.fst <$> r.startReceive profile initialHashmap now
  | .applyHashmap segment hashmapData => Prod.fst <$> r.applyHashmap profile segment hashmapData
  | .buildRequest => Prod.fst <$> r.buildRequest profile
  | .receivePart partData now => Prod.fst <$> r.receivePart profile partData now
  | .handleRequest requestData packetHash now =>
    Prod.fst <$> r.handleRequest profile requestData packetHash now
  | .setStatus status => .ok { r with status := status }
  | .checkTimeout now => Prod.fst <$> r.checkTimeout profile now

/-- A sequence of calls, stopped by the first panic. -/
def performAll (profile : Profile) (r : Resource) (ops : List Op) : Outcome Resource :=
  ops.foldlM (perform profile) r

/-- One call that finished, as a step between resources. -/
def Steps (profile : Profile) (r : Resource) (op : Op) (final : Resource) : Prop :=
  perform profile r op = .ok final

/-- A call decides the resource after it. -/
theorem steps_functional (profile : Profile) (r : Resource) (op : Op) (final final' : Resource)
    (first : Steps profile r op final) (second : Steps profile r op final') : final = final' :=
  Except.ok.inj (first.symm.trans second)

/-- The runs of finished calls are the sequences that no panic stops. -/
theorem run_iff_performAll {profile : Profile} {r final : Resource} {ops : List Op} :
    Run (Steps profile) r ops final ↔ performAll profile r ops = .ok final :=
  Run.iff_foldlM

end Resource

end Reticulum
