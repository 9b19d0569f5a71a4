import ReticulumSdk.Base.Clock
import ReticulumSdk.Base.Run
import ReticulumSdk.Hash

/-! The buffer in which a link puts channel envelopes back in order. -/

namespace Reticulum.Link

/-- `CHANNEL_SEQUENCE_MODULUS`. -/
def CHANNEL_SEQUENCE_MODULUS : Nat := 65536

/-- `CHANNEL_WINDOW_MAX`: how far ahead of the expected envelope one is still buffered. -/
def CHANNEL_WINDOW_MAX : Nat := 16384

/-- `CHANNEL_REORDER_TIMEOUT`: half a second. -/
def CHANNEL_REORDER_TIMEOUT : Duration := 500000000

/-- `channel_sequence_distance`. -/
def channelSequenceDistance (base sequence : UInt16) : Nat :=
  (sequence.toNat + CHANNEL_SEQUENCE_MODULUS - base.toNat) % CHANNEL_SEQUENCE_MODULUS

/-- `ChannelEnvelope`. -/
structure ChannelEnvelope where
  msgType : UInt16
  sequence : UInt16
  payload : Bytes
  deriving DecidableEq

/-- The receiving fields of a `Link`, with every envelope it ever posted as `LinkEvent::Channel`. -/
structure ChannelRx where
  nextRxChannelSequence : UInt16
  channelRxRing : List ChannelEnvelope
  channelRxStallSince : Option Instant
  posted : List ChannelEnvelope
  deriving DecidableEq

namespace ChannelRx

/-- A link that expects a sequence number and has received nothing. -/
def new (next : UInt16) : ChannelRx where
  nextRxChannelSequence := next
  channelRxRing := []
  channelRxStallSince := none
  posted := []

/-- Post an envelope and expect the one after it. -/
def post (rx : ChannelRx) (envelope : ChannelEnvelope) : ChannelRx :=
  { rx with
    nextRxChannelSequence := envelope.sequence + 1
    posted := rx.posted ++ [envelope] }

/-- `flush_channel_rx_ring`: everything buffered, gaps skipped. -/
def flushChannelRxRing (rx : ChannelRx) : ChannelRx :=
  let emptied := rx.channelRxRing.foldl post { rx with channelRxRing := [] }
  { emptied with channelRxStallSince := none }

/-- The loop of `deliver_contiguous_channel_rx`: how many envelopes continue the stream. -/
def contiguous (next : UInt16) : List ChannelEnvelope → Nat
  | [] => 0
  | envelope :: rest => if envelope.sequence = next then contiguous (next + 1) rest + 1 else 0

/-- `deliver_contiguous_channel_rx`. -/
def deliverContiguousChannelRx (rx : ChannelRx) : ChannelRx × Bool :=
  let count := contiguous rx.nextRxChannelSequence rx.channelRxRing
  if count = 0 then (rx, false)
  else
    ({ rx with
        nextRxChannelSequence := rx.nextRxChannelSequence + UInt16.ofNat count
        channelRxRing := rx.channelRxRing.drop count
        posted := rx.posted ++ rx.channelRxRing.take count }, true)

/-- `partition_point` of a ring ordered by distance: the envelopes nearer than a distance. -/
def partitionPoint (rx : ChannelRx) (distance : Nat) : Nat :=
  (rx.channelRxRing.takeWhile fun existing =>
    decide (channelSequenceDistance rx.nextRxChannelSequence existing.sequence < distance)).length

/-- The end of `handle_channel_envelope`: the envelope lies ahead and no recovery is due. -/
def placeEnvelope (rx : ChannelRx) (now : Instant) (envelope : ChannelEnvelope) (distance : Nat) :
    ChannelRx :=
  if distance ≥ CHANNEL_WINDOW_MAX then
    if rx.channelRxRing = [] then rx.post envelope else rx
  else
    let pos := rx.partitionPoint distance
    if (rx.channelRxRing[pos]?).any fun existing => existing.sequence = envelope.sequence then rx
    else
      let inserted := { rx with channelRxRing := rx.channelRxRing.insertIdx pos envelope }
      let (after, delivered) := inserted.deliverContiguousChannelRx
      if after.channelRxRing = [] then { after with channelRxStallSince := none }
      else if delivered ∨ after.channelRxStallSince = none then
        { after with channelRxStallSince := some now }
      else after

/-- `handle_channel_envelope`, at a reading of the clock. -/
def handleChannelEnvelope (rx : ChannelRx) (now : Instant) (envelope : ChannelEnvelope) :
    ChannelRx :=
  let distance := channelSequenceDistance rx.nextRxChannelSequence envelope.sequence
  if distance ≥ CHANNEL_SEQUENCE_MODULUS / 2 then rx
  else
    let stallExpired := rx.channelRxStallSince.any fun since =>
      decide (now.durationSince since ≥ CHANNEL_REORDER_TIMEOUT)
    if rx.channelRxRing ≠ [] ∧ (stallExpired ∨ distance ≥ CHANNEL_WINDOW_MAX) then
      let flushed := rx.flushChannelRxRing
      let distance := channelSequenceDistance flushed.nextRxChannelSequence envelope.sequence
      -- The envelope may be one that was just flushed.
      if distance ≥ CHANNEL_SEQUENCE_MODULUS / 2 then flushed
      else flushed.placeEnvelope now envelope distance
    else rx.placeEnvelope now envelope distance

/-- A run of arrivals, each an envelope and the time it is handled at. -/
def handleAll (rx : ChannelRx) (arrivals : List (ChannelEnvelope × Instant)) : ChannelRx :=
  arrivals.foldl (fun rx arrival => rx.handleChannelEnvelope arrival.2 arrival.1) rx

end ChannelRx

end Reticulum.Link
