import ReticulumSdk.Error
import ReticulumSdk.Packet

/-! Packets as they are written into a buffer of fixed size. -/

namespace Reticulum

/-- `OutputBuffer`: what was written so far, which never exceeds the room there is. -/
structure OutputBuffer where
  written : Bytes
  room : Nat
  fits : written.length ≤ room

namespace OutputBuffer

/-- `OutputBuffer::new`. -/
def new (room : Nat) : OutputBuffer := ⟨[], room, Nat.zero_le room⟩

/-- `OutputBuffer::write`, which writes all of the data or nothing. -/
def write (buffer : OutputBuffer) (data : Bytes) : Except RnsError OutputBuffer :=
  if fits : (buffer.written ++ data).length ≤ buffer.room then
    .ok ⟨buffer.written ++ data, buffer.room, fits⟩
  else .error .outOfMemory

end OutputBuffer

/-- `Header::serialize`. -/
def Header.serialize (header : Header) (buffer : OutputBuffer) : Except RnsError OutputBuffer :=
  buffer.write [header.toMeta, header.hops]

/-- `AddressHash::serialize`. -/
def AddressHash.serialize (address : AddressHash) (buffer : OutputBuffer) :
    Except RnsError OutputBuffer :=
  buffer.write address.bytes

/-- `PacketContext::serialize`. -/
def PacketContext.serialize (context : PacketContext) (buffer : OutputBuffer) :
    Except RnsError OutputBuffer :=
  buffer.write [context.toByte]

/-- `InputBuffer`: a byte string and how much of it was read. -/
structure InputBuffer where
  buffer : Bytes
  offset : Nat
  within : offset ≤ buffer.length

namespace InputBuffer

/-- `InputBuffer::new`. -/
def new (buffer : Bytes) : InputBuffer := ⟨buffer, 0, Nat.zero_le _⟩

/-- The bytes that are not read yet. -/
def left (input : InputBuffer) : Bytes := input.buffer.drop input.offset

/-- `InputBuffer::bytes_left`. -/
def bytesLeft (input : InputBuffer) : Nat := input.buffer.length - input.offset

/-- `InputBuffer::read` into a buffer of some size, which it fills. -/
def read (input : InputBuffer) (size : Nat) :
    Except RnsError ({ bytes : Bytes // bytes.length = size } × InputBuffer) :=
  if fits : input.offset + size ≤ input.buffer.length then
    .ok (⟨(input.buffer.drop input.offset).take size, by
        rw [List.length_take, List.length_drop]
        omega⟩, ⟨input.buffer, input.offset + size, fits⟩)
  else .error .outOfMemory

/-- `InputBuffer::read_byte`. -/
def readByte (input : InputBuffer) : Except RnsError (UInt8 × InputBuffer) := do
  let (bytes, input) ← input.read 1
  return (bytes.val.get ⟨0, by rw [bytes.property]; exact Nat.one_pos⟩, input)

end InputBuffer

/-- `Header::deserialize`. -/
def Header.deserialize (input : InputBuffer) : Except RnsError (Header × InputBuffer) := do
  let (byte, input) ← input.readByte
  let (hops, input) ← input.readByte
  return ({ Header.fromMeta byte with hops := hops }, input)

/-- `AddressHash::deserialize`. -/
def AddressHash.deserialize (input : InputBuffer) : Except RnsError (AddressHash × InputBuffer) := do
  let (bytes, input) ← input.read ADDRESS_HASH_SIZE
  return (⟨bytes.val, bytes.property⟩, input)

/-- `PacketContext::deserialize`. -/
def PacketContext.deserialize (input : InputBuffer) :
    Except RnsError (PacketContext × InputBuffer) := do
  let (byte, input) ← input.readByte
  return (.ofByte byte, input)

namespace Packet

/-- The access code a packet is read with, if the interface has codes of some length. -/
def deserializeIfac (input : InputBuffer) (ifacLen : Nat) :
    Except RnsError (Option Bytes × InputBuffer) :=
  if 0 < ifacLen then
    if ifacLen > PACKET_IFAC_MAX_LENGTH then .error .packetError
    else do
      let (bytes, input) ← input.read ifacLen
      return (some bytes.val, input)
  else .ok (none, input)

/-- The transport address, which a header of the second type announces. -/
def deserializeTransport (headerType : HeaderType) (input : InputBuffer) :
    Except RnsError (Option AddressHash × InputBuffer) :=
  if headerType = .type2 then do
    let (address, input) ← AddressHash.deserialize input
    return (some address, input)
  else .ok (none, input)

/-- `Packet::deserialize_with_ifac_len`. -/
def deserializeWithIfacLen (input : InputBuffer) (ifacLen : Nat) : Except RnsError Packet := do
  let (header, input) ← Header.deserialize input
  let (ifac, input) ← deserializeIfac input ifacLen
  -- The flag on the wire does not count, only whether a code was read.
  let header := { header with ifacFlag := if ifac.isSome then .authenticated else .opened }
  let (transport, input) ← deserializeTransport header.headerType input
  let (destination, input) ← AddressHash.deserialize input
  let (context, input) ← PacketContext.deserialize input
  let (data, _) ← input.read input.bytesLeft
  return { header, ifac, destination, transport, context, data := data.val }

/-- `Packet::deserialize`. -/
def deserialize (input : InputBuffer) : Except RnsError Packet := deserializeWithIfacLen input 0

/-- The access code a packet is written with, which its flag asks for. -/
def serializeIfac (packet : Packet) (buffer : OutputBuffer) : Except RnsError OutputBuffer :=
  if packet.header.ifacFlag = .authenticated then
    match packet.ifac with
    | some ifac => buffer.write ifac
    | none => .error .packetError
  else .ok buffer

/-- The transport address, which a header of the second type asks for. -/
def serializeTransport (packet : Packet) (buffer : OutputBuffer) : Except RnsError OutputBuffer :=
  if packet.header.headerType = .type2 then
    match packet.transport with
    | some transport => transport.serialize buffer
    | none => .error .packetError
  else .ok buffer

/-- `Packet::serialize`. -/
def serialize (packet : Packet) (buffer : OutputBuffer) : Except RnsError OutputBuffer := do
  let buffer ← packet.header.serialize buffer
  let buffer ← packet.serializeIfac buffer
  let buffer ← packet.serializeTransport buffer
  let buffer ← packet.destination.serialize buffer
  let buffer ← packet.context.serialize buffer
  buffer.write packet.data

/-- A packet whose flag asks for an access code has one. -/
def IfacConsistent (packet : Packet) : Prop :=
  packet.header.ifacFlag = .authenticated → packet.ifac.isSome = true

instance (packet : Packet) : Decidable packet.IfacConsistent :=
  inferInstanceAs (Decidable (_ → _))

/-- A packet whose header asks for a transport address has one, and no other packet has. -/
def TransportConsistent (packet : Packet) : Prop :=
  packet.header.headerType = .type2 ↔ packet.transport.isSome = true

/-- The bytes of the access code and the transport address a packet is written with. -/
def optionalLength (packet : Packet) : Nat :=
  (if packet.header.ifacFlag = .authenticated then (packet.ifac.getD []).length else 0) +
    if packet.header.headerType = .type2 then ADDRESS_HASH_SIZE else 0

/-- The bytes a packet takes on the wire. -/
def wireLength (packet : Packet) : Nat :=
  2 + packet.optionalLength + ADDRESS_HASH_SIZE + 1 + packet.data.length

/-- A write that has room for its data, as the step of a longer serialization. -/
private theorem write_step {buffer : OutputBuffer} {data : Bytes} {length : Nat}
    (behind : buffer.written.length + data.length + length ≤ buffer.room) :
    ∃ after, buffer.write data = .ok after ∧ after.written.length + length ≤ after.room := by
  -- Room for what comes behind is room for what is written now.
  have fits : (buffer.written ++ data).length ≤ buffer.room := by
    rw [List.length_append]
    omega
  refine ⟨_, dif_pos fits, ?_⟩
  simp only [List.length_append]
  exact behind

/-- A consistent packet is written whenever the buffer has room for it. -/
theorem serialize_ok {packet : Packet} {room : Nat} (ifac : packet.IfacConsistent)
    (transport : packet.TransportConsistent) (fits : packet.wireLength ≤ room) :
    ∃ buffer, packet.serialize (.new room) = .ok buffer := by
  -- Each field is written in turn, with room for those behind it.
  have width := packet.destination.length_eq
  simp only [wireLength, optionalLength] at fits
  obtain ⟨first, header, rest⟩ : ∃ after,
      packet.header.serialize (.new room) = .ok after ∧ after.written.length +
        (packet.optionalLength + ADDRESS_HASH_SIZE + 1 + packet.data.length) ≤ after.room := by
    refine write_step ?_
    simp only [OutputBuffer.new, List.length_nil, List.length_cons, optionalLength]
    omega
  obtain ⟨second, code, rest⟩ : ∃ after, packet.serializeIfac first = .ok after ∧
      after.written.length + ((if packet.header.headerType = .type2 then ADDRESS_HASH_SIZE else 0) +
        ADDRESS_HASH_SIZE + 1 + packet.data.length) ≤ after.room := by
    unfold serializeIfac
    simp only [optionalLength] at rest
    by_cases flagged : packet.header.ifacFlag = .authenticated
    · obtain ⟨bytes, held⟩ := Option.isSome_iff_exists.mp (ifac flagged)
      simp only [flagged, if_true, held, Option.getD_some] at rest ⊢
      exact write_step (by omega)
    · simp only [flagged, if_false] at rest ⊢
      exact ⟨first, rfl, by omega⟩
  obtain ⟨third, carrier, rest⟩ : ∃ after, packet.serializeTransport second = .ok after ∧
      after.written.length + (ADDRESS_HASH_SIZE + 1 + packet.data.length) ≤ after.room := by
    unfold serializeTransport
    by_cases stamped : packet.header.headerType = .type2
    · obtain ⟨address, held⟩ := Option.isSome_iff_exists.mp (transport.mp stamped)
      have addressed := address.length_eq
      simp only [stamped, if_true, held] at rest ⊢
      exact write_step (by omega)
    · simp only [stamped, if_false] at rest ⊢
      exact ⟨second, rfl, by omega⟩
  obtain ⟨fourth, destination, rest⟩ : ∃ after, packet.destination.serialize third = .ok after ∧
      after.written.length + (1 + packet.data.length) ≤ after.room :=
    write_step (by omega)
  obtain ⟨fifth, context, rest⟩ : ∃ after, packet.context.serialize fourth = .ok after ∧
      after.written.length + packet.data.length ≤ after.room :=
    write_step (by simp only [List.length_singleton]; omega)
  obtain ⟨last, data, -⟩ : ∃ after, fifth.write packet.data = .ok after ∧
      after.written.length + 0 ≤ after.room := write_step rest
  exact ⟨last, by simp only [serialize, header, code, carrier, destination, context, data, Bind.bind,
    Except.bind]⟩

end Packet

end Reticulum
