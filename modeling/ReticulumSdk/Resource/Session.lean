import ReticulumSdk.Resource.Timeout

/-! A sender and a receiver over a network that loses, repeats and reorders what they send. -/

namespace Reticulum

open Resource

/-- A request the receiver built, with the receiver as it was right after building it. -/
structure BuiltRequest where
  bytes : Bytes
  builder : Resource

/-- What the sender made of a delivered request, with the sender as it was before. -/
structure Answer where
  index : Nat
  request : BuiltRequest
  packetHash : Option Hash
  before : Resource
  result : Except RnsError ResourceRequestResult

/-- Both ends, and everything either of them ever put on the network. -/
structure Session where
  adv : ResourceAdvertisement
  sender : Resource
  receiver : Resource
  requests : List BuiltRequest
  answers : List Answer

namespace Session

/-- Both ends before the first message. -/
def begin (sender receiver : Resource) : Session where
  adv := .fromResource sender
  sender := sender
  receiver := receiver
  requests := []
  answers := []

/-- The parts on the network, in the order they were sent. -/
def parts (session : Session) : List Bytes :=
  session.answers.flatMap fun answer => match answer.result with
    | .ok result => result.parts
    | .error _ => []

/-- The hashmap updates on the network, in the order they were sent. -/
def updates (session : Session) : List HmuPacket :=
  session.answers.flatMap fun answer => match answer.result with
    | .ok result => result.hmuPacket.toList
    | .error _ => []

end Session

/-- One event: a call of the receiver's driver, or the delivery of a message sent at some time. -/
inductive Action where
  /-- `start_receive` with the whole advertised hashmap or with its first segment. -/
  | start (whole : Bool) (now : Instant)
  | build
  | timeout (now : Instant)
  | request (i : Nat) (packetHash : Option Hash) (now : Instant)
  | part (i : Nat) (now : Instant)
  | update (i : Nat)

namespace Session

/-- The hashmap bytes a receiver starts from. -/
def initialHashmap (session : Session) (whole : Bool) : Bytes :=
  if whole then session.adv.hashmap
  else session.adv.hashmapSegment 0 session.sender.info.sdu

/-- The receiver after a call, with the request it built put on the network. -/
def built (session : Session) (receiver : Resource) : Except RnsError Bytes → Session
  | .ok bytes => { session with
      receiver := receiver, requests := session.requests ++ [⟨bytes, receiver⟩] }
  | .error _ => { session with receiver := receiver }

/-- The request a timeout asks to repeat, if that is what it asks. -/
def retried : Except RnsError ResourceTimeoutAction → Except RnsError Bytes
  | .ok (.retryPartRequest bytes) => .ok bytes
  | .ok _ => .error .invalidArgument
  | .error fault => .error fault

/-- What a driver does with a hashmap update: read the segment and its hashes, and apply them. -/
def applyUpdate (profile : Profile) (receiver : Resource) (update : HmuPacket) : Outcome Resource :=
  match update.body.asArray with
  | some (segment :: hashes :: _) =>
    match hashes.asSlice with
    | some hashmapData =>
      Prod.fst <$> receiver.applyHashmap profile (asUsize (segment.asI64.getD 0)) hashmapData
    | none => .ok receiver
  | _ => .ok receiver

/-- One step, in which a message that was never sent cannot arrive. -/
def step (profile : Profile) (session : Session) : Action → Outcome Session
  | .start whole now => do
    let (receiver, result) ←
      session.receiver.startReceive profile (session.initialHashmap whole) now
    return session.built receiver result
  | .build => do
    let (receiver, result) ← session.receiver.buildRequest profile
    return session.built receiver result
  | .timeout now => do
    let (receiver, action) ← session.receiver.checkTimeout profile now
    return session.built receiver (retried action)
  | .request i packetHash now =>
    match session.requests[i]? with
    -- A number that names no request is a packet that does not exist.
    | none => .ok session
    | some request => do
      let (sender, result) ← session.sender.handleRequest profile request.bytes packetHash now
      return { session with
        sender := sender
        answers := session.answers ++ [⟨i, request, packetHash, session.sender, result⟩] }
  | .part i now =>
    match session.parts[i]? with
    | none => .ok session
    | some partData => do
      let (receiver, _) ← session.receiver.receivePart profile partData now
      return { session with receiver := receiver }
  | .update i =>
    match session.updates[i]? with
    | none => .ok session
    | some update => do
      let receiver ← applyUpdate profile session.receiver update
      return { session with receiver := receiver }

/-- One event that no panic stopped, as a step between sessions. -/
def Steps (profile : Profile) (session : Session) (action : Action) (final : Session) : Prop :=
  session.step profile action = .ok final

/-- A sequence of events, stopped by the first panic. -/
def stepAll (profile : Profile) (session : Session) (actions : List Action) : Outcome Session :=
  actions.foldlM (step profile) session

/-- The sequences that no panic stops are runs. -/
theorem run_of_stepAll {profile : Profile} {session final : Session} {actions : List Action}
    (finished : stepAll profile session actions = .ok final) :
    Run (Steps profile) session actions final := by
  -- Each round of the fold is one step.
  induction actions generalizing session with
  | nil =>
    obtain rfl := Except.ok.inj finished
    exact .done session
  | cons action rest ih =>
    simp only [stepAll, List.foldlM_cons, bind_eq_ok] at finished
    obtain ⟨middle, first, later⟩ := finished
    exact .next first (ih later)

end Session

end Reticulum
