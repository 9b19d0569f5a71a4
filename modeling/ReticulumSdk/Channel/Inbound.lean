import ReticulumSdk.Base.Table
import ReticulumSdk.Error
import ReticulumSdk.Hash

/-! Channel envelopes, and the receiving half that puts them back in order. -/

namespace Reticulum

/-- The `Message` trait: how an application packs its messages and reads them back. -/
structure Message (M : Type) where
  unpack : Bytes → UInt16 → Except RnsError M
  pack : M → Bytes
  messageType : M → UInt16

/-- Reading a packed message of its own type returns it. -/
def Message.Lawful {M : Type} (codec : Message M) : Prop :=
  ∀ message, codec.unpack (codec.pack message) (codec.messageType message) = .ok message

/-- Messages that are byte strings, packed as they are. -/
def rawMessage : Message Bytes where
  unpack payload _ := .ok payload
  pack := id
  messageType _ := 0

/-- Byte strings are read back as they were packed. -/
theorem rawMessage_lawful : rawMessage.Lawful := fun _ => rfl

namespace Channel

def CHANNEL_HEADER_SIZE : Nat := 6

/-- `WINDOW_MAX`, the window of the fastest links. -/
def WINDOW_MAX : UInt16 := 48

/-- `u16::to_be_bytes`. -/
def toBeBytes (number : UInt16) : Bytes :=
  [UInt8.ofNat (number.toNat / 256), UInt8.ofNat (number.toNat % 256)]

/-- `u16::from_be_bytes`. -/
def fromBeBytes (high low : UInt8) : UInt16 := UInt16.ofNat (high.toNat * 256 + low.toNat)

/-- Both bytes together are the number. -/
theorem fromBeBytes_toBeBytes (number : UInt16) :
    fromBeBytes (UInt8.ofNat (number.toNat / 256)) (UInt8.ofNat (number.toNat % 256)) = number := by
  have small := number.toNat_lt
  apply UInt16.toNat_inj.mp
  simp only [fromBeBytes, UInt16.toNat_ofNat', UInt8.toNat_ofNat']
  omega

/-- `pack_envelope`: type, sequence number and the low sixteen bits of the length, then the payload. -/
def packEnvelope (msgType sequence : UInt16) (payload : Bytes) : Bytes :=
  toBeBytes msgType ++ (toBeBytes sequence ++
    (toBeBytes (UInt16.ofNat payload.length) ++ payload))

/-- `unpack_envelope`, which ignores the length field. -/
def unpackEnvelope : Bytes → Except RnsError (UInt16 × UInt16 × Bytes)
  | t0 :: t1 :: s0 :: s1 :: _ :: _ :: payload =>
    .ok (fromBeBytes t0 t1, fromBeBytes s0 s1, payload)
  | _ => .error .packetError

/-- An envelope is read as it was packed. -/
theorem unpackEnvelope_packEnvelope (msgType sequence : UInt16) (payload : Bytes) :
    unpackEnvelope (packEnvelope msgType sequence payload) = .ok (msgType, sequence, payload) := by
  simp [packEnvelope, unpackEnvelope, toBeBytes, fromBeBytes_toBeBytes]

/-- `message_bytes`. -/
def messageBytes {M : Type} (codec : Message M) (message : M) (sequence : UInt16) : Bytes :=
  packEnvelope (codec.messageType message) sequence (codec.pack message)

/-- `Inbound`, with everything it ever passed to `incoming_tx`. -/
structure Inbound (M : Type) where
  onHold : Table UInt16 M
  nextSequence : UInt16
  incoming : List M

namespace Inbound

variable {M : Type}

/-- `Inbound::new`. -/
def new : Inbound M where
  onHold := ∅
  nextSequence := 0
  incoming := []

/-- The test `receive` drops an envelope by. -/
def outOfWindow (next sequence : UInt16) : Bool :=
  let overflow := sequence + WINDOW_MAX
  decide (sequence < next) && (decide (overflow < next) || decide (overflow < sequence))

/-- Pass the next message on and stop holding it. -/
def passOn (inbound : Inbound M) (message : M) : Inbound M where
  onHold := inbound.onHold.erase inbound.nextSequence
  nextSequence := inbound.nextSequence + 1
  incoming := inbound.incoming ++ [message]

/-- The loop at the end of `receive`, which a bound on its rounds makes structural. -/
def drain : Nat → Inbound M → Inbound M
  | 0, inbound => inbound
  | rounds + 1, inbound =>
    match inbound.onHold.lookup inbound.nextSequence with
    | none => inbound
    | some message => drain rounds (inbound.passOn message)

/-- Hold a message and pass on whatever is next, in at most as many rounds as messages are held. -/
def hold (inbound : Inbound M) (sequence : UInt16) (message : M) : Inbound M :=
  let onHold := inbound.onHold.insert sequence message
  drain (Table.size onHold) { inbound with onHold := onHold }

/-- `Inbound::receive`. -/
def receive (codec : Message M) (inbound : Inbound M) (raw : Bytes) : Inbound M :=
  match unpackEnvelope raw with
  | .error _ => inbound
  | .ok (msgType, sequence, payload) =>
    if outOfWindow inbound.nextSequence sequence then inbound
    else match codec.unpack payload msgType with
      | .error _ => inbound
      | .ok message => inbound.hold sequence message

/-- The loop ends when the next message is not held. -/
theorem drain_stop {inbound : Inbound M} {rounds : Nat}
    (found : inbound.onHold.lookup inbound.nextSequence = none) : drain rounds inbound = inbound := by
  cases rounds with
  | zero => rfl
  | succ rounds => simp [drain, found]

/-- One round of the loop. -/
theorem drain_next {inbound : Inbound M} {rounds : Nat} {message : M}
    (found : inbound.onHold.lookup inbound.nextSequence = some message) :
    drain (rounds + 1) inbound = drain rounds (inbound.passOn message) := by
  simp [drain, found]

/-- The bound is never what ends the loop: afterwards the next message is not held. -/
theorem drain_done (rounds : Nat) (inbound : Inbound M)
    (enough : inbound.onHold.size ≤ rounds) :
    (drain rounds inbound).onHold.lookup (drain rounds inbound).nextSequence = none := by
  -- Each round takes one message out of those held, so the bound suffices.
  induction rounds generalizing inbound with
  | zero =>
    refine AList.lookup_eq_none.mpr fun held => ?_
    have fewer := Table.size_erase held
    simp only [drain] at fewer
    omega
  | succ rounds ih =>
    cases found : inbound.onHold.lookup inbound.nextSequence with
    | none =>
      rw [drain_stop found]
      exact found
    | some message =>
      rw [drain_next found]
      apply ih
      have fewer := Table.size_erase (Table.mem_of_lookup found)
      simp only [passOn]
      omega

/-- What a well-formed envelope does. -/
theorem receive_messageBytes {codec : Message M} (lawful : codec.Lawful) (inbound : Inbound M)
    (message : M) (sequence : UInt16) :
    inbound.receive codec (messageBytes codec message sequence) =
      if outOfWindow inbound.nextSequence sequence then inbound
      else inbound.hold sequence message := by
  simp only [receive, messageBytes, unpackEnvelope_packEnvelope, lawful message]

end Inbound

end Channel

end Reticulum
