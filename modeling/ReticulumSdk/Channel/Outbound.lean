import Mathlib.Data.Finset.Insert
import ReticulumSdk.Base.Run
import ReticulumSdk.Channel.Inbound
import ReticulumSdk.Link.State

/-! The sending half of a channel: adaptive window, tracking and retransmission. -/

namespace Reticulum.Channel

/-- The window a channel starts with. -/
def WINDOW : Nat := 2
/-- The smallest window a channel starts with. -/
def WINDOW_MIN : Nat := 2
/-- The smallest window once the link has shown a medium rate. -/
def WINDOW_MIN_LIMIT_MEDIUM : Nat := 5
/-- The smallest window once the link has shown a fast rate. -/
def WINDOW_MIN_LIMIT_FAST : Nat := 16
/-- The largest window a channel starts with. -/
def WINDOW_MAX_SLOW : Nat := 5
/-- The largest window at a medium rate. -/
def WINDOW_MAX_MEDIUM : Nat := 12
/-- The largest window of all. -/
def WINDOW_MAX_FAST : Nat := 48
/-- The distance kept between the window's bounds on a timeout. -/
def WINDOW_FLEXIBILITY : Nat := 4
/-- Rounds at a rate before the window's bounds are raised to it. -/
def FAST_RATE_THRESHOLD : Nat := 10
/-- Seconds of a round trip up to which the rate counts as fast. -/
def RTT_FAST : Float32 := 0.18
/-- Seconds up to which it counts as medium. -/
def RTT_MEDIUM : Float32 := 0.75
/-- Seconds above which a channel starts slowly. -/
def RTT_SLOW : Float32 := 1.45
/-- Transmissions of a message before the link is given up. -/
def MAX_TRIES : Nat := 5

/-- `ChannelParams`, whose numbers are all `u16`. -/
structure ChannelParams where
  maxTries : Nat
  fastRateRounds : Nat
  mediumRateRounds : Nat
  window : Nat
  windowMax : Nat
  windowMin : Nat
  deriving DecidableEq

/-- `ChannelParams::new`. -/
def ChannelParams.new (slow : Bool) : ChannelParams where
  maxTries := MAX_TRIES
  fastRateRounds := 0
  mediumRateRounds := 0
  window := if slow then 1 else WINDOW
  windowMax := if slow then 1 else WINDOW_MAX_SLOW
  windowMin := if slow then 1 else WINDOW_MIN

/-- The four ways `adjust_params` reads a round trip. -/
inductive Rate where
  | unmeasured
  | slow
  | medium
  | fast
  deriving DecidableEq

/-- The comparisons of `adjust_params`, in their order. -/
def rateOf (rtt : Duration) : Rate :=
  let secs := rtt.asSecsF32
  if secs == 0.0 then .unmeasured
  else if secs > RTT_FAST then
    if secs > RTT_MEDIUM then .slow else .medium
  else .fast

/-- The first step of `adjust_params`: a window below its limit grows by one. -/
def growWindow (profile : Profile) (params : ChannelParams) : Outcome Nat :=
  if params.window < params.windowMax then profile.add u16Range params.window 1
  else .ok params.window

/-- `adjust_params`: grow the window, count the rounds at this rate and raise the bounds. -/
def adjustParams (profile : Profile) (params : ChannelParams) (rtt : Duration) :
    Outcome ChannelParams := do
  let window ← growWindow profile params
  let params := { params with window := window }
  match rateOf rtt with
  | .unmeasured => return params
  | .slow => return { params with fastRateRounds := 0, mediumRateRounds := 0 }
  -- A slower rate starts the count of the faster ones anew.
  | .medium =>
    let rounds ← profile.add u16Range params.mediumRateRounds 1
    let params := { params with fastRateRounds := 0, mediumRateRounds := rounds }
    if params.windowMax < WINDOW_MAX_MEDIUM ∧ rounds = FAST_RATE_THRESHOLD then
      return { params with windowMax := WINDOW_MAX_MEDIUM, windowMin := WINDOW_MIN_LIMIT_MEDIUM }
    else return params
  | .fast =>
    let rounds ← profile.add u16Range params.fastRateRounds 1
    let params := { params with fastRateRounds := rounds }
    -- Only the round that reaches the threshold raises the limits.
    if params.windowMax < WINDOW_MAX_FAST ∧ rounds = FAST_RATE_THRESHOLD then
      return { params with windowMax := WINDOW_MAX_FAST, windowMin := WINDOW_MIN_LIMIT_FAST }
    else return params

/-- The window decrease of `handle_timeout`. -/
def shrinkWindow (profile : Profile) (params : ChannelParams) : Outcome ChannelParams :=
  if params.window > params.windowMin then do
    let window ← profile.sub u16Range params.window 1
    -- `saturating_sub`.
    let flex := min WINDOW_FLEXIBILITY (params.windowMax - params.windowMin)
    let floor ← profile.add u16Range params.windowMin flex
    if params.windowMax > floor then
      let windowMax ← profile.sub u16Range params.windowMax 1
      return { params with window := window, windowMax := windowMax }
    else
      return { params with window := window }
  else .ok params

/-- `SentMessage`, with the number of the message among those sent, which the code does not keep. -/
structure SentMessage where
  rawEnvelope : Bytes
  packetHash : Hash
  tries : Nat
  message : Nat

/-- `Outbound`, with what it ever handed to the transport and for which message. -/
structure Outbound where
  link : Link
  sentMessages : Table Hash SentMessage
  delivered : Finset Hash
  nextSequence : UInt16
  params : ChannelParams
  cancelled : Bool
  accepted : Nat
  transmitted : List (Nat × Packet)

/-- `MessageStatus`. -/
inductive MessageStatus where
  | unknown
  | waiting
  | sent (tries : Nat)
  | delivered
  deriving DecidableEq

namespace Outbound

/-- `Outbound::new`. -/
def new (link : Link) : Outbound where
  link := link
  sentMessages := ∅
  delivered := ∅
  nextSequence := 0
  params := .new (decide (link.rtt.asSecsF32 > RTT_SLOW))
  cancelled := false
  accepted := 0
  transmitted := []

/-- `Outbound::is_ready_to_send`. -/
def isReadyToSend (outbound : Outbound) : Bool :=
  !outbound.cancelled && decide (outbound.link.status = .active) &&
    decide (outbound.sentMessages.size < outbound.params.window)

/-- The packet that goes out: the one that was hashed, with its context changed. -/
def forChannel (packet : Packet) : Packet := { packet with context := .channel }

/-- `Outbound::enqueue_send`, with the cipher of this call. -/
def enqueueSend {M : Type} (codec : Message M) (outbound : Outbound) (encrypt : Cipher)
    (message : M) : Outbound × Except RnsError Hash :=
  if ¬ outbound.isReadyToSend then (outbound, .error .channelLinkNotReady)
  else
    let rawEnvelope := messageBytes codec message outbound.nextSequence
    -- A failure rolls the reserved sequence number back.
    if rawEnvelope.length > PACKET_MDU then (outbound, .error .channelMessageTooBig)
    else match outbound.link.dataPacket encrypt rawEnvelope with
      | .error fault => (outbound, .error fault)
      | .ok packet =>
        -- Nobody sees the entry between its insertion and the first try.
        let sent := {
          rawEnvelope := rawEnvelope
          packetHash := packet.hash
          tries := 1
          message := outbound.accepted }
        ({ outbound with
            nextSequence := outbound.nextSequence + 1
            sentMessages := outbound.sentMessages.insert packet.hash sent
            accepted := outbound.accepted + 1
            transmitted := outbound.transmitted ++ [(outbound.accepted, forChannel packet)] },
          .ok packet.hash)

/-- `Outbound::handle_proof`. -/
def handleProof (profile : Profile) (outbound : Outbound) (packetHash : Hash) : Outcome Outbound :=
  match outbound.sentMessages.lookup packetHash with
  -- The proof of what is not tracked says nothing.
  | none => .ok outbound
  | some _ => do
    let params ← adjustParams profile outbound.params outbound.link.rtt
    return { outbound with
      sentMessages := outbound.sentMessages.erase packetHash
      params := params
      delivered := insert packetHash outbound.delivered }

/-- `Outbound::handle_timeout`, with the cipher of this call. -/
def handleTimeout (profile : Profile) (outbound : Outbound) (encrypt : Cipher) (packetHash : Hash) :
    Outcome Outbound :=
  match outbound.sentMessages.lookup packetHash with
  | none => .ok outbound
  | some sent =>
    -- A message that was tried often enough closes the link.
    if sent.tries ≥ outbound.params.maxTries then .ok { outbound with link := outbound.link.close }
    else do
      let params ← shrinkWindow profile outbound.params
      let newTries ← profile.add u16Range sent.tries 1
      match outbound.link.dataPacket encrypt sent.rawEnvelope with
      | .error _ => return { outbound with params := params }
      | .ok packet =>
        -- The message is encrypted anew, and tracked under its new hash.
        let moved := { sent with tries := newTries, packetHash := packet.hash }
        return { outbound with
          params := params
          transmitted := outbound.transmitted ++ [(sent.message, forChannel packet)]
          sentMessages := (outbound.sentMessages.erase packetHash).insert packet.hash moved }

/-- `Channel::message_status`. -/
def messageStatus (outbound : Outbound) (packetHash : Hash) : MessageStatus :=
  match outbound.sentMessages.lookup packetHash with
  | some sent => if sent.tries = 0 then .waiting else .sent sent.tries
  | none => if packetHash ∈ outbound.delivered then .delivered else .unknown

/-- The packet last handed to the transport for a message. -/
def latest (outbound : Outbound) (message : Nat) : Option Packet :=
  (outbound.transmitted.reverse.find? fun transmission => transmission.1 = message).map Prod.snd

end Outbound

/-- One call on a channel's sending half, or a change of the link it shares with other tasks. -/
inductive Call (M : Type) where
  | send (encrypt : Cipher) (message : M)
  | proof (packetHash : Hash)
  | timeout (encrypt : Cipher) (packetHash : Hash)
  | relink (link : Link)

namespace Outbound

variable {M : Type}

/-- The sending half after a call. -/
def perform (profile : Profile) (codec : Message M) (outbound : Outbound) : Call M → Outcome Outbound
  | .send encrypt message => .ok (outbound.enqueueSend codec encrypt message).1
  | .proof packetHash => outbound.handleProof profile packetHash
  | .timeout encrypt packetHash => outbound.handleTimeout profile encrypt packetHash
  | .relink link => .ok { outbound with link := link }

/-- A call that no panic stopped, as a step. -/
def Steps (profile : Profile) (codec : Message M) (outbound : Outbound) (call : Call M)
    (final : Outbound) : Prop :=
  outbound.perform profile codec call = .ok final

end Outbound

end Reticulum.Channel
