import Mathlib.Data.Fintype.Basic
import ReticulumSdk.Serde

/-! What is written of a packet is what is read back, field by field. -/

namespace Reticulum

/-- What holds of the 256 values of a byte holds of every byte. -/
theorem forall_byte (holds : UInt8 → Prop) (each : ∀ value : Fin 256, holds (.ofFin value))
    (byte : UInt8) : holds byte :=
  each byte.toFin

/-- The fields packed into the header byte are those read from it. -/
theorem Header.fromMeta_toMeta (header : Header) :
    { Header.fromMeta header.toMeta with hops := header.hops } = header := by
  -- The hops play no part, and what is left is one of finitely many headers.
  obtain ⟨ifac, kind, context, propagation, destination, packet, hops⟩ := header
  simp only [Header.fromMeta, Header.toMeta, Header.mk.injEq, and_true]
  cases ifac <;> cases kind <;> cases context <;> cases propagation <;> cases destination <;>
    cases packet <;> decide

/-- A header byte without the access code's flag is packed again as it was. -/
theorem Header.toMeta_fromMeta {flags : UInt8} (opened : flags &&& 0b10000000 = 0) (hops : UInt8) :
    ({ Header.fromMeta flags with ifacFlag := .opened, hops := hops } : Header).toMeta = flags :=
  forall_byte (fun flags => flags &&& 0b10000000 = 0 →
    ({ Header.fromMeta flags with ifacFlag := .opened, hops := 0 } : Header).toMeta = flags)
      (by decide +kernel) flags opened

/-- The second header type is one bit of the header byte. -/
theorem HeaderType.ofByte_eq_type2_iff (flags : UInt8) :
    HeaderType.ofByte (flags >>> 6) = .type2 ↔ flags &&& 0b01000000 ≠ 0 :=
  forall_byte (fun flags => ofByte (flags >>> 6) = .type2 ↔ flags &&& 0b01000000 ≠ 0)
    (by decide +kernel) flags

/-- Every context is read back from its code. -/
theorem PacketContext.ofByte_toByte (context : PacketContext) :
    PacketContext.ofByte context.toByte = context := by
  cases context <;> rfl

/-- The codes of the contexts there are: the lowest fifteen, and the highest six. -/
def PacketContext.Known (code : UInt8) : Prop := code ≤ 0x0E ∨ 0xFA ≤ code

instance (code : UInt8) : Decidable (PacketContext.Known code) :=
  inferInstanceAs (Decidable (_ ∨ _))

/-- Only the codes of the contexts there are survive being read. -/
theorem PacketContext.toByte_ofByte_iff (code : UInt8) :
    (PacketContext.ofByte code).toByte = code ↔ PacketContext.Known code :=
  forall_byte (fun code => (ofByte code).toByte = code ↔ Known code) (by decide +kernel) code

namespace OutputBuffer

variable {buffer after : OutputBuffer} {data : Bytes}

/-- A write succeeds with what it appends, which has to fit. -/
theorem write_eq_ok : buffer.write data = .ok after ↔
    after.written = buffer.written ++ data ∧ after.room = buffer.room := by
  -- The buffer after the write carries the proof that the data fitted.
  obtain ⟨written, room, fits⟩ := after
  unfold write
  constructor
  · intro wrote
    split at wrote
    · cases wrote
      exact ⟨rfl, rfl⟩
    · cases wrote
  · rintro ⟨rfl, rfl⟩
    exact dif_pos fits

end OutputBuffer

namespace InputBuffer

variable {input middle after : InputBuffer} {front back bytes rest : Bytes} {byte : UInt8}

/-- Reading moves from one position of a buffer to another, past some bytes. -/
structure Reads (input : InputBuffer) (bytes : Bytes) (after : InputBuffer) : Prop where
  buffer_eq : after.buffer = input.buffer
  offset_eq : after.offset = input.offset + bytes.length
  left_eq : input.left = bytes ++ after.left

/-- How many bytes are left. -/
theorem left_length (input : InputBuffer) : input.left.length = input.bytesLeft := List.length_drop

@[simp] theorem new_left (buffer : Bytes) : (new buffer).left = buffer := rfl

/-- Bytes that come next are inside the buffer. -/
private theorem within_of_left (ahead : input.left = front ++ rest) :
    input.offset + front.length ≤ input.buffer.length := by
  have lengths := congrArg List.length ahead
  simp only [left, List.length_append, List.length_drop] at lengths
  have := input.within
  omega

/-- What comes next can be read, up to any position. -/
theorem exists_reads : (∃ after, input.Reads bytes after ∧ after.left = rest) ↔
    input.left = bytes ++ rest := by
  constructor
  · rintro ⟨after, reads, rfl⟩
    exact reads.left_eq
  · intro ahead
    -- The position behind the bytes is one of the buffer.
    let after : InputBuffer := ⟨input.buffer, input.offset + bytes.length, within_of_left ahead⟩
    have behind : after.left = rest := by
      simp only [left, after] at ahead ⊢
      rw [← List.drop_drop, ahead, List.drop_left]
    exact ⟨after, ⟨rfl, rfl, by rw [behind, ahead]⟩, behind⟩

/-- Two positions behind the same bytes are the same. -/
theorem Reads.unique (reads : input.Reads bytes middle) (other : input.Reads bytes after) :
    middle = after := by
  -- Both leave the same buffer at the same offset, and the bound is a proof.
  obtain ⟨buffer, offset, within⟩ := middle
  obtain ⟨buffer', offset', within'⟩ := after
  obtain rfl := reads.buffer_eq.trans other.buffer_eq.symm
  obtain rfl := reads.offset_eq.trans other.offset_eq.symm
  rfl

/-- A read succeeds with the bytes that come next. -/
theorem read_eq_ok {size : Nat} {bytes : { bytes : Bytes // bytes.length = size }} :
    input.read size = .ok (bytes, after) ↔ input.Reads bytes.val after := by
  obtain ⟨bytes, width⟩ := bytes
  -- Where the bytes come next, the read takes them and stops behind them.
  have taken {rest : Bytes} (ahead : input.left = bytes ++ rest) :
      ∃ after, input.read size = .ok (⟨bytes, width⟩, after) ∧ input.Reads bytes after := by
    have fits := within_of_left ahead
    obtain ⟨after, reads, -⟩ := exists_reads.mpr ahead
    refine ⟨after, ?_, reads⟩
    subst width
    have same : (input.buffer.drop input.offset).take bytes.length = bytes := by
      rw [left] at ahead
      rw [ahead, List.take_left]
    obtain ⟨buffer, offset, within⟩ := after
    obtain rfl := reads.buffer_eq
    obtain rfl := reads.offset_eq
    simp only [read, dif_pos fits, same]
  constructor
  · intro done
    -- A read that succeeded took the front of what was left.
    have front : ∃ rest, input.left = bytes ++ rest := by
      unfold read at done
      split at done
      · cases done
        exact ⟨_, (List.take_append_drop size _).symm⟩
      · cases done
    obtain ⟨rest, ahead⟩ := front
    obtain ⟨after', again, reads⟩ := taken ahead
    cases done.symm.trans again
    exact reads
  · intro reads
    obtain ⟨after', done, reads'⟩ := taken reads.left_eq
    obtain rfl := reads.unique reads'
    exact done

/-- A byte is read exactly when it comes next. -/
theorem readByte_eq_ok : input.readByte = .ok (byte, after) ↔ input.Reads [byte] after := by
  -- A list of one byte is that byte.
  simp only [readByte, bind_eq_ok, pure, Except.pure, Except.ok.injEq, Prod.mk.injEq, Prod.exists]
  constructor
  · rintro ⟨⟨bytes, width⟩, middle, taken, rfl, rfl⟩
    have reads := read_eq_ok.mp taken
    obtain ⟨byte, rfl⟩ := List.length_eq_one_iff.mp width
    exact reads
  · intro reads
    exact ⟨⟨[byte], rfl⟩, after, read_eq_ok.mpr reads, rfl, rfl⟩

/-- Reading two strings one after the other is reading both at once. -/
theorem reads_append : (∃ middle, input.Reads front middle ∧ middle.Reads back after) ↔
    input.Reads (front ++ back) after := by
  constructor
  · rintro ⟨middle, first, second⟩
    refine ⟨second.buffer_eq.trans first.buffer_eq, ?_, ?_⟩
    · rw [second.offset_eq, first.offset_eq, List.length_append, Nat.add_assoc]
    · rw [first.left_eq, second.left_eq, List.append_assoc]
  · intro both
    -- The position in between is behind the first string.
    have ahead := both.left_eq
    rw [List.append_assoc] at ahead
    obtain ⟨middle, first, between⟩ := exists_reads.mpr ahead
    refine ⟨middle, first, both.buffer_eq.trans first.buffer_eq.symm, ?_, between⟩
    rw [both.offset_eq, first.offset_eq, List.length_append, Nat.add_assoc]

/-- Reading nothing leaves the position where it is. -/
theorem reads_nil : input.Reads [] after ↔ after = input := by
  have here : input.Reads [] input := ⟨rfl, rfl, rfl⟩
  constructor
  · exact fun reads => reads.unique here
  · rintro rfl
    exact here

end InputBuffer

section

variable {input after : InputBuffer}

open InputBuffer

/-- A header is read from two bytes. -/
theorem Header.deserialize_eq_ok {header : Header} :
    Header.deserialize input = .ok (header, after) ↔ ∃ byte,
      input.Reads [byte, header.hops] after ∧ header = { Header.fromMeta byte with hops := header.hops } := by
  simp only [Header.deserialize, bind_eq_ok, pure, Except.pure, Except.ok.injEq, Prod.mk.injEq,
    Prod.exists, readByte_eq_ok]
  -- Two bytes are read one after the other, or both at once.
  constructor
  · rintro ⟨byte, middle, first, hops, behind, second, rfl, rfl⟩
    exact ⟨byte, reads_append.mp ⟨middle, first, second⟩, rfl⟩
  · rintro ⟨byte, both, fields⟩
    have split : input.Reads ([byte] ++ [header.hops]) after := both
    obtain ⟨middle, first, second⟩ := reads_append.mpr split
    exact ⟨byte, middle, first, header.hops, after, second, fields.symm, rfl⟩

/-- An address is read from its bytes. -/
theorem AddressHash.deserialize_eq_ok {address : AddressHash} :
    AddressHash.deserialize input = .ok (address, after) ↔ input.Reads address.bytes after := by
  simp only [AddressHash.deserialize, bind_eq_ok, pure, Except.pure, Except.ok.injEq, Prod.mk.injEq,
    Prod.exists, read_eq_ok]
  -- An address is a read of as many bytes as it has.
  constructor
  · rintro ⟨bytes, behind, reads, rfl, rfl⟩
    exact reads
  · exact fun reads => ⟨⟨address.bytes, address.length_eq⟩, after, reads, rfl, rfl⟩

/-- A context is read from one byte. -/
theorem PacketContext.deserialize_eq_ok {context : PacketContext} :
    PacketContext.deserialize input = .ok (context, after) ↔ ∃ byte,
      input.Reads [byte] after ∧ context = .ofByte byte := by
  simp only [PacketContext.deserialize, bind_eq_ok, pure, Except.pure, Except.ok.injEq, Prod.mk.injEq,
    Prod.exists, readByte_eq_ok]
  -- Every byte is some context.
  constructor
  · rintro ⟨byte, behind, reads, rfl, rfl⟩
    exact ⟨byte, reads, rfl⟩
  · rintro ⟨byte, reads, rfl⟩
    exact ⟨byte, after, reads, rfl, rfl⟩

namespace Packet

/-- The access code a packet carries on an interface with codes of some length. -/
def CodeOf (ifacLen : Nat) (ifac : Option Bytes) : Prop :=
  if 0 < ifacLen then ∃ code, ifac = some code ∧ code.length = ifacLen else ifac = none

/-- A code is read from as many bytes as the interface says. -/
theorem deserializeIfac_eq_ok {ifacLen : Nat} {ifac : Option Bytes} :
    deserializeIfac input ifacLen = .ok (ifac, after) ↔
      ifacLen ≤ PACKET_IFAC_MAX_LENGTH ∧ CodeOf ifacLen ifac ∧ input.Reads (ifac.getD []) after := by
  unfold deserializeIfac CodeOf
  -- A code is read when its length is neither zero nor too long.
  by_cases coded : 0 < ifacLen
  · by_cases long : ifacLen > PACKET_IFAC_MAX_LENGTH
    · simp only [if_pos coded, if_pos long, reduceCtorEq, false_iff]
      omega
    · -- Without a code nothing is read.
      simp only [if_pos coded, if_neg long, bind_eq_ok, pure, Except.pure, Except.ok.injEq,
        Prod.mk.injEq, Prod.exists, read_eq_ok]
      constructor
      · rintro ⟨⟨code, width⟩, behind, reads, rfl, rfl⟩
        exact ⟨by omega, ⟨code, rfl, width⟩, reads⟩
      · rintro ⟨-, ⟨code, rfl, width⟩, reads⟩
        exact ⟨⟨code, width⟩, after, reads, rfl, rfl⟩
  · simp only [if_neg coded, Except.ok.injEq, Prod.mk.injEq]
    constructor
    · rintro ⟨rfl, rfl⟩
      exact ⟨by omega, rfl, reads_nil.mpr rfl⟩
    · rintro ⟨-, rfl, reads⟩
      exact ⟨rfl, (reads_nil.mp reads).symm⟩

/-- The bytes of an address there may be. -/
abbrev addressBytes (address : Option AddressHash) : Bytes := address.elim [] (·.bytes)

/-- A transport address is read where the header asks for it. -/
theorem deserializeTransport_eq_ok {headerType : HeaderType} {transport : Option AddressHash} :
    deserializeTransport headerType input = .ok (transport, after) ↔
      (headerType = .type2 ↔ transport.isSome = true) ∧
        input.Reads (addressBytes transport) after := by
  unfold deserializeTransport
  -- The type of the header says whether an address follows.
  by_cases addressed : headerType = .type2
  · simp only [if_pos addressed, bind_eq_ok, pure, Except.pure, Except.ok.injEq, Prod.mk.injEq,
      Prod.exists, AddressHash.deserialize_eq_ok]
    constructor
    · rintro ⟨address, behind, reads, rfl, rfl⟩
      exact ⟨iff_of_true addressed rfl, reads⟩
    · rintro ⟨held, reads⟩
      obtain ⟨address, rfl⟩ := Option.isSome_iff_exists.mp (held.mp addressed)
      exact ⟨address, after, reads, rfl, rfl⟩
  · simp only [if_neg addressed, Except.ok.injEq, Prod.mk.injEq]
    constructor
    · rintro ⟨rfl, rfl⟩
      exact ⟨iff_of_false addressed (by simp), reads_nil.mpr rfl⟩
    · rintro ⟨held, reads⟩
      cases transport with
      | none => exact ⟨rfl, (reads_nil.mp reads).symm⟩
      | some address => exact absurd (held.mpr rfl) addressed

/-- The rest of a packet is its data. -/
private theorem readRest_eq_ok {data : Bytes} :
    (∃ bytes : { bytes : Bytes // bytes.length = input.bytesLeft }, ∃ after,
      input.read input.bytesLeft = .ok (bytes, after) ∧ bytes.val = data) ↔ input.left = data := by
  constructor
  · rintro ⟨⟨bytes, width⟩, after, taken, rfl⟩
    -- Nothing is left behind as many bytes as were left.
    have ahead := (read_eq_ok.mp taken).left_eq
    have none : after.left = [] := by
      have lengths := congrArg List.length ahead
      rw [List.length_append, left_length, width] at lengths
      exact List.eq_nil_of_length_eq_zero (by omega)
    rw [ahead, none, List.append_nil]
  · rintro rfl
    obtain ⟨after, reads, -⟩ := exists_reads.mpr (List.append_nil input.left).symm
    exact ⟨⟨input.left, left_length input⟩, after, read_eq_ok.mpr reads, rfl⟩

/-- The fields of a packet as they follow each other on the wire. -/
def layout (flags hops : UInt8) (code address destination : Bytes) (context : UInt8) (data : Bytes) :
    Bytes :=
  [flags, hops] ++ (code ++ (address ++ (destination ++ ([context] ++ data))))

/-- A packet is read exactly from the bytes that lay it out. -/
theorem deserializeWithIfacLen_eq_ok {packet : Packet} {ifacLen : Nat} :
    deserializeWithIfacLen input ifacLen = .ok packet ↔
      ifacLen ≤ PACKET_IFAC_MAX_LENGTH ∧ CodeOf ifacLen packet.ifac ∧ packet.TransportConsistent ∧
        ∃ flags context, input.left = layout flags packet.header.hops (packet.ifac.getD [])
            (addressBytes packet.transport) packet.destination.bytes context packet.data ∧
          packet.header = { Header.fromMeta flags with
            hops := packet.header.hops
            ifacFlag := if packet.ifac.isSome then .authenticated else .opened } ∧
          packet.context = .ofByte context := by
  simp only [deserializeWithIfacLen, bind_eq_ok, Prod.exists, Header.deserialize_eq_ok,
    deserializeIfac_eq_ok, deserializeTransport_eq_ok, AddressHash.deserialize_eq_ok,
    PacketContext.deserialize_eq_ok, pure, Except.pure, Except.ok.injEq]
  constructor
  · -- Each field was read where the one before it ends.
    rintro ⟨header, atCode, ⟨flags, front, fields⟩, ifac, atAddress, ⟨short, coded, code⟩, transport,
      atDestination, ⟨addressed, address⟩, destination, atContext, target, context, atData,
      ⟨byte, read, rfl⟩, data, done, taken, rfl⟩
    refine ⟨short, coded, addressed, flags, byte, ?_, by rw [fields], rfl⟩
    rw [front.left_eq, code.left_eq, address.left_eq, target.left_eq, read.left_eq,
      readRest_eq_ok.mp ⟨data, done, taken, rfl⟩]
    rfl
  · rintro ⟨short, coded, addressed, flags, byte, ahead, fields, known⟩
    obtain ⟨atCode, front, ahead⟩ := exists_reads.mpr ahead
    obtain ⟨atAddress, code, ahead⟩ := exists_reads.mpr ahead
    obtain ⟨atDestination, address, ahead⟩ := exists_reads.mpr ahead
    obtain ⟨atContext, target, ahead⟩ := exists_reads.mpr ahead
    obtain ⟨atData, read, ahead⟩ := exists_reads.mpr ahead
    obtain ⟨data, done, taken, same⟩ := readRest_eq_ok.mpr ahead
    refine ⟨{ Header.fromMeta flags with hops := packet.header.hops }, atCode, ⟨flags, front, rfl⟩,
      packet.ifac, atAddress, ⟨short, coded, code⟩, packet.transport, atDestination, ⟨?_, address⟩,
      packet.destination, atContext, target, packet.context, atData, ⟨byte, read, known⟩, data, done,
      taken, ?_⟩
    · have kind : packet.header.headerType = .ofByte (flags >>> 6) :=
        congrArg Header.headerType fields
      rw [TransportConsistent, kind] at addressed
      exact addressed
    · cases packet
      simp only at fields same ⊢
      rw [same, ← fields]

/-- The access code a packet is written with. -/
def writtenCode (packet : Packet) : Bytes :=
  if packet.header.ifacFlag = .authenticated then packet.ifac.getD [] else []

/-- The transport address a packet is written with. -/
def writtenAddress (packet : Packet) : Bytes :=
  if packet.header.headerType = .type2 then addressBytes packet.transport else []

/-- The bytes a packet is written as. -/
def wire (packet : Packet) : Bytes :=
  layout packet.header.toMeta packet.header.hops packet.writtenCode packet.writtenAddress
    packet.destination.bytes packet.context.toByte packet.data

variable {packet : Packet} {buffer done : OutputBuffer} {room : Nat}

/-- An access code is written where the flag asks for one, which has to be there. -/
theorem serializeIfac_eq_ok : packet.serializeIfac buffer = .ok done ↔ packet.IfacConsistent ∧
    done.written = buffer.written ++ packet.writtenCode ∧ done.room = buffer.room := by
  unfold serializeIfac IfacConsistent writtenCode
  -- Only the flag has the code written.
  by_cases flagged : packet.header.ifacFlag = .authenticated
  · cases held : packet.ifac with
    | none => simp [flagged]
    | some code => simp [flagged, OutputBuffer.write_eq_ok]
  · simp only [flagged, if_false, false_imp_iff, true_and, List.append_nil, Except.ok.injEq]
    exact ⟨by rintro rfl; exact ⟨rfl, rfl⟩, fun ⟨same, room⟩ => by
      cases buffer; cases done; cases same; cases room; rfl⟩

/-- A transport address is written where the header asks for one, which has to be there. -/
theorem serializeTransport_eq_ok : packet.serializeTransport buffer = .ok done ↔
    (packet.header.headerType = .type2 → packet.transport.isSome = true) ∧
      done.written = buffer.written ++ packet.writtenAddress ∧ done.room = buffer.room := by
  unfold serializeTransport writtenAddress
  -- Only the second type has the address written.
  by_cases addressed : packet.header.headerType = .type2
  · cases held : packet.transport with
    | none => simp [addressed]
    | some address => simp [addressed, AddressHash.serialize, OutputBuffer.write_eq_ok]
  · simp only [addressed, if_false, false_imp_iff, true_and, List.append_nil, Except.ok.injEq]
    exact ⟨by rintro rfl; exact ⟨rfl, rfl⟩, fun ⟨same, room⟩ => by
      cases buffer; cases done; cases same; cases room; rfl⟩

/-- How long the bytes of a packet are, where it has the fields its header asks for. -/
theorem wire_length (addressed : packet.header.headerType = .type2 → packet.transport.isSome = true) :
    packet.wire.length = packet.wireLength := by
  -- The two optional fields have the lengths that are counted for them.
  have code : packet.writtenCode.length =
      if packet.header.ifacFlag = .authenticated then (packet.ifac.getD []).length else 0 := by
    unfold writtenCode
    split <;> rfl
  have address : packet.writtenAddress.length =
      if packet.header.headerType = .type2 then ADDRESS_HASH_SIZE else 0 := by
    unfold writtenAddress
    split
    · rename_i stamped
      obtain ⟨address, held⟩ := Option.isSome_iff_exists.mp (addressed stamped)
      rw [held]
      exact address.length_eq
    · rfl
  simp only [wire, layout, wireLength, optionalLength, List.length_append, List.length_cons,
    List.length_nil, code, address, packet.destination.length_eq]
  omega

/-- A packet is written whenever it has the fields its header asks for and the room suffices. -/
theorem serialize_eq_ok : packet.serialize (.new room) = .ok done ↔
    packet.IfacConsistent ∧ (packet.header.headerType = .type2 → packet.transport.isSome = true) ∧
      done.written = packet.wire ∧ done.room = room := by
  simp only [serialize, bind_eq_ok, Header.serialize, AddressHash.serialize, PacketContext.serialize,
    OutputBuffer.write_eq_ok, serializeIfac_eq_ok, serializeTransport_eq_ok]
  constructor
  · -- What is written grows by one field at a time, in a room that stays the same.
    rintro ⟨first, ⟨header, kept⟩, second, ⟨coded, code, kept'⟩, third, ⟨addressed, address, kept''⟩,
      fourth, ⟨target, kept4⟩, fifth, ⟨context, kept5⟩, data, kept6⟩
    refine ⟨coded, addressed, ?_, ?_⟩
    · rw [data, context, target, address, code, header]
      simp [wire, layout, OutputBuffer.new]
    · rw [kept6, kept5, kept4, kept'', kept', kept]
      rfl
  · rintro ⟨coded, addressed, written, rfl⟩
    -- Every front of what is written fits, and is what one of the steps leaves.
    have prefixed {front back : Bytes} (split : packet.wire = front ++ back) :
        front.length ≤ done.room := by
      have fits := done.fits
      rw [written, split, List.length_append] at fits
      omega
    let header : Bytes := [packet.header.toMeta, packet.header.hops]
    let target := packet.destination.bytes
    refine ⟨⟨header, done.room, prefixed rfl⟩, ⟨rfl, rfl⟩,
      ⟨header ++ packet.writtenCode, done.room, prefixed (by simp [wire, layout, header]; rfl)⟩,
      ⟨coded, rfl, rfl⟩,
      ⟨header ++ packet.writtenCode ++ packet.writtenAddress, done.room,
        prefixed (by simp [wire, layout, header]; rfl)⟩, ⟨addressed, rfl, rfl⟩,
      ⟨header ++ packet.writtenCode ++ packet.writtenAddress ++ target, done.room,
        prefixed (by simp [wire, layout, header, target]; rfl)⟩, ⟨rfl, rfl⟩,
      ⟨header ++ packet.writtenCode ++ packet.writtenAddress ++ target ++ [packet.context.toByte],
        done.room, prefixed (by simp [wire, layout, header, target]; rfl)⟩, ⟨rfl, rfl⟩, ?_, rfl⟩
    rw [written]
    simp [wire, layout, header, target]

/-- A packet that can be sent: it has exactly the fields that its header asks for. -/
structure WellFormed (packet : Packet) : Prop where
  transport : packet.TransportConsistent
  flagged : packet.header.ifacFlag = .authenticated ↔ packet.ifac.isSome = true
  coded : ∀ code ∈ packet.ifac, 1 ≤ code.length ∧ code.length ≤ PACKET_IFAC_MAX_LENGTH

/-- The length of a packet's access code, or zero. -/
def ifacLength (packet : Packet) : Nat := packet.ifac.elim 0 List.length

/-- A well-formed packet has the fields it is written with, and no others. -/
theorem WellFormed.wire_eq (formed : packet.WellFormed) : packet.wire =
    layout packet.header.toMeta packet.header.hops (packet.ifac.getD []) (addressBytes packet.transport)
      packet.destination.bytes packet.context.toByte packet.data := by
  -- A field that is not written is not there.
  have code : packet.writtenCode = packet.ifac.getD [] := by
    unfold writtenCode
    split
    · rfl
    · rename_i opened
      cases held : packet.ifac with
      | none => rfl
      | some code => exact absurd (formed.flagged.mpr (by rw [held]; rfl)) opened
  have address : packet.writtenAddress = addressBytes packet.transport := by
    unfold writtenAddress
    split
    · rfl
    · rename_i direct
      cases held : packet.transport with
      | none => rfl
      | some address => exact absurd (formed.transport.mpr (by rw [held]; rfl)) direct
  rw [wire, code, address]

/-- The bytes of a well-formed packet are read as that packet. -/
theorem WellFormed.deserialize_wire (formed : packet.WellFormed) :
    deserializeWithIfacLen (.new packet.wire) packet.ifacLength = .ok packet := by
  refine deserializeWithIfacLen_eq_ok.mpr ⟨?_, ?_, formed.transport, packet.header.toMeta,
    packet.context.toByte, formed.wire_eq, ?_, (PacketContext.ofByte_toByte _).symm⟩
  · cases held : packet.ifac with
    | none => simp [ifacLength, held]
    | some code => simpa [ifacLength, held] using (formed.coded code held).2
  · cases held : packet.ifac with
    | none => simp [CodeOf, ifacLength, held]
    | some code =>
      have filled := (formed.coded code held).1
      simpa [CodeOf, ifacLength, held] using by omega
  · -- The flag that is set for a code that was read is the flag the packet had.
    have flag : packet.header.ifacFlag = if packet.ifac.isSome then .authenticated else .opened := by
      cases flagged : packet.header.ifacFlag with
      | authenticated => rw [if_pos (formed.flagged.mp flagged)]
      | opened =>
        refine (if_neg fun held => ?_).symm
        cases flagged.symm.trans (formed.flagged.mpr held)
    have fields := packet.header.fromMeta_toMeta
    rw [← flag]
    conv => lhs; rw [← fields]
    rw [Header.mk.injEq]
    exact ⟨by rw [← congrArg Header.ifacFlag fields], rfl, rfl, rfl, rfl, rfl, rfl⟩

/--
Packets survive the wire: what is written of a well-formed packet is read as that packet, and nothing
but too little room keeps it from being written.
-/
theorem deserialize_serialize (formed : packet.WellFormed) (room : Nat) :
    (∀ buffer, packet.serialize (.new room) = .ok buffer →
      deserializeWithIfacLen (.new buffer.written) packet.ifacLength = .ok packet) ∧
    (∀ error, packet.serialize (.new room) = .error error → room < packet.wireLength) := by
  constructor
  · intro buffer written
    rw [(serialize_eq_ok.mp written).2.2.1]
    exact formed.deserialize_wire
  · intro error failed
    -- With room for its bytes the packet would have been written.
    by_contra room
    obtain ⟨buffer, written⟩ := serialize_ok formed.flagged.mp formed.transport (not_lt.mp room)
    cases failed.symm.trans written

/-- A packet with a code of two bytes for a transport, as one on its way through a protected network. -/
private def protectedSample : Packet where
  header := { ifacFlag := .authenticated, headerType := .type2, propagationType := .transport, hops := 3 }
  ifac := some [0x7e, 0x7d]
  destination := ⟨List.replicate 16 0x11, by decide⟩
  transport := some ⟨List.replicate 16 0x22, by decide⟩
  context := .channel
  data := [1, 2, 3]

/-- A packet with an access code and a transport address is read as it was written. -/
theorem deserialize_serialize_protected :
    (∀ buffer, protectedSample.serialize (.new 64) = .ok buffer →
      deserializeWithIfacLen (.new buffer.written) 2 = .ok protectedSample) ∧
    (∀ error, protectedSample.serialize (.new 64) = .error error → 64 < protectedSample.wireLength) :=
  deserialize_serialize ⟨iff_of_true rfl rfl, iff_of_true rfl rfl, by decide⟩ 64

/-- Where the context stands in bytes without an access code, by the header type they begin with. -/
def contextOffset (bytes : Bytes) : Nat :=
  if bytes.headD 0 &&& 0b01000000 = 0 then RETICULUM_HEADER_MINSIZE - 1 else RETICULUM_MAX_HEADER_SIZE - 1

/-- The context code in the bytes of a packet. -/
def contextCode (bytes : Bytes) : UInt8 := bytes.getD (contextOffset bytes) 0

/-- What the hash of a packet covers, in the bytes it came as. -/
def hashedBytes (bytes : Bytes) : Bytes :=
  (bytes.headD 0 &&& 0b00001111) :: bytes.drop (contextOffset bytes - ADDRESS_HASH_SIZE)

/-- An open packet that was read is written as it came, but for the code of its context. -/
private theorem wire_of_deserialize {bytes : Bytes} (opened : bytes.headD 0 &&& 0b10000000 = 0)
    (read : deserialize (.new bytes) = .ok packet) :
    packet.WellFormed ∧ packet.header.toMeta = bytes.headD 0 ∧
      packet.context = .ofByte (contextCode bytes) ∧
      ∃ front, front.length + ADDRESS_HASH_SIZE = contextOffset bytes ∧
        bytes = front ++ (packet.destination.bytes ++ contextCode bytes :: packet.data) ∧
        packet.wire = front ++ (packet.destination.bytes ++ packet.context.toByte :: packet.data) := by
  obtain ⟨-, plain, addressed, flags, code, laid, fields, context⟩ := deserializeWithIfacLen_eq_ok.mp read
  have none : packet.ifac = none := plain
  simp only [none, Option.getD_none, Option.isSome_none, Bool.false_eq_true, if_false,
    InputBuffer.new_left] at laid fields
  have flag : packet.header.ifacFlag = .opened := congrArg Header.ifacFlag fields
  have formed : packet.WellFormed := ⟨addressed, by simp [none, flag], by simp [none]⟩
  -- The header byte is packed again as it came.
  have first : bytes.headD 0 = flags := by rw [laid]; rfl
  rw [first] at opened
  have packed : packet.header.toMeta = flags := by
    rw [fields]
    exact Header.toMeta_fromMeta opened _
  -- The context stands behind one address or two, as the header type says.
  have kind : packet.header.headerType = .ofByte (flags >>> 6) := congrArg Header.headerType fields
  have before : ([flags, packet.header.hops] ++ addressBytes packet.transport).length +
      ADDRESS_HASH_SIZE = contextOffset bytes := by
    have asked := HeaderType.ofByte_eq_type2_iff flags
    rw [← kind] at asked
    rw [contextOffset, first]
    by_cases direct : flags &&& 0b01000000 = 0
    · have absent : packet.transport = .none := by
        cases held : packet.transport with
        | none => rfl
        | some address => exact absurd direct (asked.mp (addressed.mpr (by rw [held]; rfl)))
      rw [absent, if_pos direct]
      rfl
    · obtain ⟨address, held⟩ := Option.isSome_iff_exists.mp (addressed.mp (asked.mpr direct))
      rw [held, if_neg direct, List.length_append]
      exact congrArg (2 + · + ADDRESS_HASH_SIZE) address.length_eq
  -- So the bytes are the header and addresses, then the destination, the context and the data.
  have whole : bytes = ([flags, packet.header.hops] ++ addressBytes packet.transport) ++
      (packet.destination.bytes ++ code :: packet.data) := by simp [laid, layout]
  have same : contextCode bytes = code := by
    have width := packet.destination.length_eq
    rw [contextCode, ← before, whole, List.getD_eq_getElem?_getD,
      List.getElem?_append_right (Nat.le_add_right _ _), Nat.add_sub_cancel_left, ← width,
      List.getElem?_append_right le_rfl, Nat.sub_self]
    rfl
  refine ⟨formed, packed.trans first.symm, by rw [same]; exact context, _, before, by rw [same]; exact whole,
    ?_⟩
  rw [formed.wire_eq, packed, none]
  simp [layout]

/--
Relaying keeps a foreign packet: an open packet that was read is written as it came, and has the hash
of what came, exactly if its context is one of those there are.
-/
theorem serialize_deserialize_iff {bytes : Bytes} (opened : bytes.headD 0 &&& 0b10000000 = 0)
    (read : deserialize (.new bytes) = .ok packet) :
    ((∀ room, bytes.length ≤ room → ∃ buffer, packet.serialize (.new room) = .ok buffer ∧
        buffer.written = bytes) ∧ packet.hash = .generate (hashedBytes bytes)) ↔
      PacketContext.Known (contextCode bytes) := by
  obtain ⟨formed, packed, context, front, before, came, wire⟩ := wire_of_deserialize opened read
  have code : packet.context.toByte = contextCode bytes ↔ PacketContext.Known (contextCode bytes) := by
    rw [context]
    exact PacketContext.toByte_ofByte_iff _
  rw [← code]
  constructor
  · rintro ⟨written, -⟩
    -- The bytes that are written differ from those that came in the context at most.
    obtain ⟨buffer, done, same⟩ := written bytes.length le_rfl
    have ends := (serialize_eq_ok.mp done).2.2.1
    rw [same, wire] at ends
    have inner := List.append_cancel_left (List.append_cancel_left (came.symm.trans ends))
    exact (List.cons.inj inner).1.symm
  · intro known
    rw [known, ← came] at wire
    refine ⟨fun room fits => ?_, ?_⟩
    · have length := wire_length formed.transport.mp
      rw [wire] at length
      obtain ⟨buffer, done⟩ := serialize_ok formed.flagged.mp formed.transport (length ▸ fits)
      exact ⟨buffer, done, (serialize_eq_ok.mp done).2.2.1.trans wire⟩
    · -- The hash skips everything in front of the destination.
      have behind : bytes.drop (contextOffset bytes - ADDRESS_HASH_SIZE) =
          packet.destination.bytes ++ contextCode bytes :: packet.data := by
        rw [← before, Nat.add_sub_cancel]
        conv => lhs; rw [came]
        exact List.drop_left
      rw [hash, hashed, packed, known, hashedBytes, behind]

/-- An open packet of generic data without any. -/
private def openSample : Bytes := List.replicate RETICULUM_HEADER_MINSIZE 0

/-- A packet of a known context is passed on as it came. -/
theorem serialize_deserialize_known : ∃ packet, deserialize (.new openSample) = .ok packet ∧
    PacketContext.Known (contextCode openSample) ∧
      (∀ room, openSample.length ≤ room → ∃ buffer, packet.serialize (.new room) = .ok buffer ∧
        buffer.written = openSample) ∧ packet.hash = .generate (hashedBytes openSample) := by
  have readable : passes (deserialize (.new openSample)) (fun _ => true) = true := by decide +kernel
  obtain ⟨packet, read, -⟩ := exists_of_passes readable
  have known : PacketContext.Known (contextCode openSample) := by decide
  exact ⟨packet, read, known, (serialize_deserialize_iff (by decide) read).mpr known⟩

/-- A packet whose context is none of those there are. -/
private def foreignSample : Bytes := List.replicate (RETICULUM_HEADER_MINSIZE - 1) 0 ++ [0x20]

/-- A packet of a context that is not known is not passed on as it came. -/
theorem foreign_context_lost : ¬ ∀ bytes packet, bytes.headD 0 &&& 0b10000000 = 0 →
    deserialize (.new bytes) = .ok packet →
      ∃ buffer, packet.serialize (.new bytes.length) = .ok buffer ∧ buffer.written = bytes := by
  intro kept
  -- It is read with the context of generic data, whose code is what is written.
  have lost : passes (deserialize (.new foreignSample)) (fun packet =>
      passes (packet.serialize (.new foreignSample.length)) fun buffer =>
        buffer.written ≠ foreignSample) = true := by
    decide +kernel
  obtain ⟨packet, read, lost⟩ := exists_of_passes lost
  obtain ⟨buffer, done, differs⟩ := exists_of_passes lost
  obtain ⟨buffer', done', same⟩ := kept foreignSample packet (by decide) read
  cases done.symm.trans done'
  exact of_decide_eq_true differs same

end Packet

end

end Reticulum
