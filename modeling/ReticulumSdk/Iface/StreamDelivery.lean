import ReticulumSdk.Iface.IfacLaws
import ReticulumSdk.Iface.TcpClientLaws

/-! What one end of a stream interface transmits is what the other end delivers. -/

namespace Reticulum

/-- A header without the flag for an access code is packed without it. -/
theorem Header.toMeta_flag {header : Header} (opened : header.ifacFlag = .opened) :
    header.toMeta &&& 0x80 ≠ 0x80 := by
  -- The flag is the first bit, whatever the other fields are.
  obtain ⟨ifac, kind, context, propagation, destination, packet, hops⟩ := header
  simp only at opened
  subst opened
  simp only [Header.toMeta]
  cases kind <;> cases context <;> cases propagation <;> cases destination <;> cases packet <;> decide

/-- The header byte of a packet tells its header type. -/
theorem Header.fromMeta_headerType (header : Header) :
    (Header.fromMeta header.toMeta).headerType = header.headerType := by
  have fields := congrArg Header.headerType header.fromMeta_toMeta
  exact fields

namespace TcpReceiver

variable {hkdf : HkdfSha256} {packet : Packet}

/-- An open packet is delivered as it was written. -/
theorem accept_wire (formed : packet.WellFormed) (plain : packet.ifac = none) :
    accept hkdf none packet.wire = some packet := by
  -- An unmasked packet has an open header, which decides how its first byte is read.
  have opened : packet.header.ifacFlag = .opened := by
    cases flag : packet.header.ifacFlag with
    | opened => rfl
    | authenticated =>
      have coded := formed.flagged.mp flag
      rw [plain] at coded
      cases coded
  have first : packet.wire = packet.header.toMeta :: packet.wire.tail := rfl
  -- No packet is shorter than its header.
  have long : ¬ packet.wire.length < minimumDecodedPacketLen packet.wire := by
    have width := Packet.wire_length formed.transport.mp
    rw [width, minimumDecodedPacketLen, first]
    simp only [List.head?_cons, Header.fromMeta_headerType, Packet.wireLength, Packet.optionalLength,
      opened]
    by_cases stamped : packet.header.headerType = .type2
    · simp only [stamped, if_true, RETICULUM_MAX_HEADER_SIZE, ADDRESS_HASH_SIZE]
      omega
    · simp only [stamped, if_false, RETICULUM_HEADER_MINSIZE, ADDRESS_HASH_SIZE]
      omega
  have decoded : decodeRx hkdf none packet.wire = .ok packet := by
    have flag : ¬ (packet.wire ≠ [] ∧ packet.wire.getD 0 0 &&& 0x80 = 0x80) := by
      rw [first]
      exact fun flagged => Header.toMeta_flag opened flagged.2
    have read := formed.deserialize_wire
    rw [Packet.ifacLength, plain] at read
    simp only [decodeRx, if_neg flag]
    exact read
  rw [accept, if_neg long, decoded]
  rfl

end TcpReceiver

/-- A packet that a stream interface carries without an access code. -/
structure Packet.Carried (hwMtu : Nat) (packet : Packet) : Prop where
  formed : packet.WellFormed
  plain : packet.ifac = none
  fits : packet.wireLength ≤ hwMtu

/-- A packet that is carried is transmitted, in buffers that take it even if every byte is escaped. -/
theorem StreamBuffers.transmit_carried {hwMtu : Nat} {buffers : StreamBuffers} (hkdf : HkdfSha256)
    (started : allocate hwMtu = .ok buffers) {packet : Packet} (carried : packet.Carried hwMtu) :
    packet.wireLength ≤ buffers.txCapacity ∧ 2 * packet.wireLength + 2 ≤ buffers.hdlcCapacity ∧
      buffers.transmit hkdf none packet = some (Hdlc.frame packet.wire) := by
  obtain ⟨tx, hdlc, -⟩ := of_allocate started
  have fits := carried.fits
  have width := Packet.wire_length carried.formed.transport.mp
  refine ⟨by omega, by omega, ?_⟩
  -- The packet fits the first buffer, and its frame the second.
  obtain ⟨out, serialized⟩ := Packet.serialize_ok carried.formed.flagged.mp carried.formed.transport
    (show packet.wireLength ≤ buffers.txCapacity by omega)
  obtain ⟨-, -, written, -⟩ := Packet.serialize_eq_ok.mp serialized
  obtain ⟨done, encoded, framed⟩ := Hdlc.encode_ok
    (show 2 * packet.wire.length + 2 ≤ buffers.hdlcCapacity by omega)
  simp only [transmit, encodeTx, serialized, Bind.bind, Except.bind, pure, Except.pure, written,
    encoded, framed]

/--
A stream interface is exact: every packet that is carried is transmitted, and the frames that are
transmitted are received as those packets, in order and each once, however the stream is cut into
reads, without any of them being dropped as too long.
-/
theorem stream_exact (hkdf : HkdfSha256) {hwMtu : Nat} {buffers : StreamBuffers}
    (started : StreamBuffers.allocate hwMtu = .ok buffers) {packets : List Packet}
    (carried : ∀ packet ∈ packets, packet.Carried hwMtu) :
    (∀ packet ∈ packets, packet.wireLength ≤ buffers.txCapacity ∧
      2 * packet.wireLength + 2 ≤ buffers.hdlcCapacity ∧
      (buffers.transmit hkdf none packet).isSome = true) ∧
    ∀ frames, List.Forall₂ (fun packet frame => buffers.transmit hkdf none packet = some frame)
        packets frames →
      ∀ reads : List TcpRead, reads.flatMap TcpRead.bytes = frames.flatten →
        let received := TcpReceiver.new.receiveAll hkdf none buffers.rxCapacity reads
        received.rxChannel = packets ∧ received.oversized = [] := by
  have sent := fun packet inside => StreamBuffers.transmit_carried hkdf started (carried packet inside)
  refine ⟨fun packet inside => ?_, fun frames transmitted reads cut => ?_⟩
  · obtain ⟨serialized, framed, written⟩ := sent packet inside
    exact ⟨serialized, framed, by rw [written]; rfl⟩
  · -- The stream is the frames of what the packets are written as.
    have stream : frames.flatten = (packets.map Packet.wire).flatMap Hdlc.frame := by
      clear carried cut
      induction transmitted with
      | nil => rfl
      | cons first rest ih =>
        rw [(sent _ List.mem_cons_self).2.2] at first
        cases first
        rw [List.flatten_cons, ih (fun packet inside => sent packet (List.mem_cons_of_mem _ inside))]
        rfl
    have rx := (StreamBuffers.of_allocate started).2.2
    -- A frame is at most twice its packet with a flag at each end, which the buffer was sized for.
    have fits : ∀ data ∈ packets.map Packet.wire, (Hdlc.frame data).length ≤ buffers.rxCapacity := by
      simp only [List.mem_map, forall_exists_index, and_imp, forall_apply_eq_imp_iff₂]
      intro packet inside
      have width := Packet.wire_length (carried packet inside).formed.transport.mp
      have small := (carried packet inside).fits
      have wide := (Hdlc.frame_length packet.wire).2
      omega
    have quiet : HDLC_FRAME_FLAG ∉ TcpReceiver.new.frameBuffer := by simp [TcpReceiver.new]
    have received := TcpReceiver.receiveAll_frames hkdf none quiet (Nat.zero_le _) fits
      (cut.trans stream) (by
        intro data leading front back _ before
        have small := fits data (List.mem_of_mem_head? leading)
        simp only [TcpReceiver.new, List.length_nil]
        omega)
    have all : (packets.map Packet.wire).filterMap (TcpReceiver.accept hkdf none) = packets := by
      rw [List.filterMap_map]
      refine Eq.trans (List.filterMap_congr fun packet inside => ?_) List.filterMap_some
      exact TcpReceiver.accept_wire (carried packet inside).formed (carried packet inside).plain
    rw [all] at received
    exact received

/-- A packet with bytes that have to be escaped. -/
private def escapedSample : Packet where
  header := {}
  destination := .filled 0x7e
  transport := none
  context := .none
  data := [0x7d, 0x7e]

/-- Its frame in two reads, the first of which ends inside an escape. -/
private def cutReads : List TcpRead :=
  let frame := Hdlc.frame escapedSample.wire
  [⟨frame.take 4, by decide, by decide⟩, ⟨frame.drop 4, by decide +kernel, by decide +kernel⟩]

/-- A packet is carried whose frame is cut inside an escape. -/
theorem stream_exact_cut :
    (∀ packet ∈ [escapedSample], packet.wireLength ≤ 2083 ∧ 2 * packet.wireLength + 2 ≤ 4168 ∧
      (StreamBuffers.transmit ⟨2083, 4168, 4098⟩ .sample none packet).isSome = true) ∧
    (TcpReceiver.new.receiveAll .sample none 4098 cutReads).rxChannel = [escapedSample] ∧
    (TcpReceiver.new.receiveAll .sample none 4098 cutReads).oversized = [] := by
  -- The theorem is used at the default buffers and a stream that is cut within an escape.
  have started : StreamBuffers.allocate DEFAULT_HW_MTU = .ok ⟨2083, 4168, 4098⟩ := by rfl
  have carried : ∀ packet ∈ [escapedSample], packet.Carried DEFAULT_HW_MTU := by
    simp only [List.mem_singleton, forall_eq]
    exact ⟨⟨iff_of_false (by decide) (by decide), iff_of_false (by decide) (by decide), by decide⟩, rfl,
      by decide⟩
  obtain ⟨sent, received⟩ := stream_exact .sample started carried
  have written := (StreamBuffers.transmit_carried .sample started (carried _ List.mem_cons_self)).2.2
  exact ⟨sent, received _ (.cons written .nil) cutReads (by decide +kernel)⟩

/-- The keystream that the frame of a packet is masked with. -/
def Packet.keystream (hkdf : HkdfSha256) (config : IfacConfig) (packet : Packet) : Bytes :=
  hkdf.stream config.ifacKey (config.codeOf packet.opened.wire)
    (packet.opened.wire.length + config.ifacLen)

/--
Whether the masked frame of a packet passes for one that is long enough: it has two addresses, or is as
long as if it had, or the keystream leaves the bit of the header type as it is.
-/
def Packet.LongEnough (hkdf : HkdfSha256) (config : IfacConfig) (packet : Packet) : Prop :=
  packet.header.headerType = .type2 ∨
    RETICULUM_MAX_HEADER_SIZE ≤ RETICULUM_HEADER_MINSIZE + config.ifacLen + packet.data.length ∨
      (packet.keystream hkdf config).getD 0 0 &&& 0b01000000 = 0

instance (hkdf : HkdfSha256) (config : IfacConfig) (packet : Packet) :
    Decidable (packet.LongEnough hkdf config) :=
  inferInstanceAs (Decidable (_ ∨ _ ∨ _))

namespace TcpReceiver

variable {hkdf : HkdfSha256} {config : IfacConfig} {packet attached : Packet} {room : Nat}
  {bytes : Bytes}

/-- The minimum length is decided by one bit of the first byte. -/
theorem minimumDecodedPacketLen_eq (data : Bytes) : minimumDecodedPacketLen data =
    if data.getD 0 0 &&& 0b01000000 = 0 then RETICULUM_HEADER_MINSIZE else RETICULUM_MAX_HEADER_SIZE := by
  cases data with
  | nil => rfl
  | cons byte data =>
    -- The length depends on one bit of the first byte.
    have kind : (Header.fromMeta byte).headerType = .type2 ↔ byte &&& 0b01000000 ≠ 0 :=
      HeaderType.ofByte_eq_type2_iff byte
    by_cases bit : byte &&& 0b01000000 = 0
    · have direct : (Header.fromMeta byte).headerType ≠ .type2 := fun stamped => kind.mp stamped bit
      simp [minimumDecodedPacketLen, direct, bit]
    · simp [minimumDecodedPacketLen, kind.mpr bit, bit]

/-- A masked frame is delivered exactly if it passes for one that is long enough. -/
theorem accept_masked (done : config.attach packet = .ok attached)
    (encoded : encodeTx hkdf (some config) attached room = .ok bytes) :
    accept hkdf (some config) bytes =
      if packet.LongEnough hkdf config then some packet.opened else none := by
  have masked := IfacConfig.maskFrame_of_attach done encoded
  have received := IfacConfig.decodeRx_of_attach done encoded
  obtain ⟨addressed, -⟩ := IfacConfig.attach_eq_ok.mp done
  have formed := Packet.opened_wellFormed addressed
  -- The frame is longer than the open packet by the code, and its keystream is as long.
  have shape := (IfacConfig.maskFrame_eq_ok.mp masked).2.2
  have length : bytes.length = packet.opened.wire.length + config.ifacLen := by
    rw [shape, List.length_mapIdx, IfacConfig.wire_withCode_length]
  have mask : config.mask hkdf (config.withCode packet).wire = packet.keystream hkdf config := by
    rw [IfacConfig.mask, IfacConfig.accessCode_withCode, IfacConfig.wire_withCode_length]
    rfl
  have first := IfacConfig.first_masked masked
  rw [mask] at first
  have width := Packet.wire_length formed.transport.mp
  -- The bit that tells the header type is that of the packet, flipped by the keystream.
  have kind : (config.withCode packet).wire.getD 0 0 &&& 0b01000000 ≠ 0 ↔
      packet.header.headerType = .type2 := by
    rw [← HeaderType.ofByte_eq_type2_iff]
    exact iff_of_eq (congrArg (· = HeaderType.type2)
      (Header.fromMeta_headerType (config.withCode packet).header))
  rw [accept, received, minimumDecodedPacketLen_eq, first, type_masked, length, width]
  by_cases stamped : packet.header.headerType = .type2
  · -- A packet with two addresses is long enough in any case.
    have long : RETICULUM_MAX_HEADER_SIZE ≤ packet.opened.wireLength := by
      simp only [Packet.wireLength, Packet.optionalLength, Packet.opened, stamped, if_true,
        RETICULUM_MAX_HEADER_SIZE, ADDRESS_HASH_SIZE]
      omega
    have least : RETICULUM_HEADER_MINSIZE ≤ RETICULUM_MAX_HEADER_SIZE := by decide
    rw [if_pos (show packet.LongEnough hkdf config from .inl stamped), if_neg (by split <;> omega)]
    rfl
  · -- With one address it is asked for the longer header where the keystream sets the bit.
    have bit : (config.withCode packet).wire.getD 0 0 &&& 0b01000000 = 0 := by
      by_contra set
      exact stamped (kind.mp set)
    have size : packet.opened.wireLength = RETICULUM_HEADER_MINSIZE + packet.data.length := by
      simp [Packet.wireLength, Packet.optionalLength, Packet.opened, stamped, RETICULUM_HEADER_MINSIZE,
        ADDRESS_HASH_SIZE]
    rw [bit, UInt8.zero_xor, size]
    by_cases plain : (packet.keystream hkdf config).getD 0 0 &&& 0b01000000 = 0
    · rw [if_pos plain, if_pos (show packet.LongEnough hkdf config from .inr (.inr plain)),
        if_neg (by omega)]
      rfl
    · rw [if_neg plain]
      by_cases short : RETICULUM_HEADER_MINSIZE + packet.data.length + config.ifacLen <
          RETICULUM_MAX_HEADER_SIZE
      · rw [if_pos short, if_neg]
        rintro (other | long | clear)
        · exact stamped other
        · omega
        · exact plain clear
      · rw [if_neg short, if_pos (show packet.LongEnough hkdf config from .inr (.inl (by omega)))]
        rfl

end TcpReceiver

/--
A packet with its access code is delivered exactly if its masked frame passes for one that is long
enough: the receive loop reads the header type before it takes the mask off.
-/
theorem masked_delivered_iff {hkdf : HkdfSha256} {config : IfacConfig} {buffers : StreamBuffers}
    {packet attached : Packet} {frame : Bytes} (done : config.attach packet = .ok attached)
    (sent : buffers.transmit hkdf (some config) attached = some frame)
    {receiver : TcpReceiver} (between : receiver.frameBuffer = [])
    (fits : frame.length ≤ buffers.rxCapacity) {reads : List TcpRead}
    (cut : reads.flatMap TcpRead.bytes = frame) :
    (receiver.receiveAll hkdf (some config) buffers.rxCapacity reads).rxChannel =
        receiver.rxChannel ++ [packet.opened] ↔
      packet.LongEnough hkdf config := by
  -- What was transmitted is the frame of the masked bytes.
  obtain ⟨bytes, encoded, rfl⟩ : ∃ bytes,
      encodeTx hkdf (some config) attached buffers.txCapacity = .ok bytes ∧ frame = Hdlc.frame bytes := by
    unfold StreamBuffers.transmit at sent
    split at sent
    · rename_i bytes encoded
      split at sent
      · rename_i output framed
        cases sent
        exact ⟨bytes, encoded, (Hdlc.encode_eq_ok.mp framed).1⟩
      · cases sent
    · cases sent
  have quiet : HDLC_FRAME_FLAG ∉ receiver.frameBuffer := by
    rw [between]
    exact List.not_mem_nil
  have small : receiver.frameBuffer.length ≤ buffers.rxCapacity := by
    rw [between]
    exact Nat.zero_le _
  have single : reads.flatMap TcpRead.bytes = [bytes].flatMap Hdlc.frame := by
    rw [cut, List.flatMap_cons, List.flatMap_nil, List.append_nil]
  have received := TcpReceiver.receiveAll_frames hkdf (some config) quiet small
    (by simpa using fits) single (by
      intro data leading front back _ before
      cases leading
      rw [between, List.length_nil]
      omega)
  rw [received.1, List.append_cancel_left_eq, List.filterMap_cons, TcpReceiver.accept_masked done encoded]
  by_cases long : packet.LongEnough hkdf config
  · simp [long]
  · simp [long]

/-- A packet of nothing but its header. -/
private def headerOnly : Packet where
  header := {}
  destination := .filled 0x11
  transport := none
  context := .keepAlive
  data := []

/-- A keystream that has the bit of the header type, for concrete runs. -/
private def HkdfSha256.flipping : HkdfSha256 where
  expand _ _ length := if HKDF_MAX_LENGTH < length then none
    else some ⟨List.replicate length 0x40, List.length_replicate⟩
  fails_iff _ _ _ := by split <;> simp [*]

/-- The frame of a keepalive under a keystream, in one read. -/
private def keepAliveRead (hkdf : HkdfSha256) : Option (Bytes × TcpRead) := do
  let attached ← (IfacConfig.sample.attach headerOnly).toOption
  let frame ← StreamBuffers.transmit ⟨2083, 4168, 4098⟩ hkdf (some .sample) attached
  if filled : 0 < frame.length ∧ frame.length ≤ TCP_READ_BUFFER_SIZE then
    some (frame, ⟨frame, filled.1, filled.2⟩)
  else none

/-- What it takes for the frame to be sent. -/
private theorem keepAliveRead_eq_some {hkdf : HkdfSha256} {frame : Bytes} {read : TcpRead}
    (sent : keepAliveRead hkdf = some (frame, read)) :
    ∃ attached, IfacConfig.sample.attach headerOnly = .ok attached ∧
      StreamBuffers.transmit ⟨2083, 4168, 4098⟩ hkdf (some .sample) attached = some frame ∧
      [read].flatMap TcpRead.bytes = frame := by
  -- The read is made of the frame, where it fits the buffer of the socket.
  simp only [keepAliveRead, Option.bind_eq_bind, Option.bind_eq_some_iff] at sent
  obtain ⟨attached, signed, frame', written, sent⟩ := sent
  split at sent
  · cases sent
    refine ⟨attached, ?_, written, List.append_nil _⟩
    cases done : IfacConfig.sample.attach headerOnly with
    | ok attached' =>
      rw [done] at signed
      cases signed
      rfl
    | error error =>
      rw [done] at signed
      cases signed
  · cases sent

/-- A keepalive whose keystream leaves the header type alone is delivered. -/
theorem masked_keepAlive_delivered : ∃ frame read, keepAliveRead .sample = some (frame, read) ∧
    ((TcpReceiver.new.receiveAll .sample (some .sample) 4098 [read]).rxChannel =
        TcpReceiver.new.rxChannel ++ [headerOnly.opened] ↔
      headerOnly.LongEnough .sample .sample) := by
  have sent : (keepAliveRead .sample).any (fun sent => sent.1.length ≤ 4098) = true := by decide +kernel
  obtain ⟨⟨frame, read⟩, sent, fits⟩ := (Option.any_eq_true _ _).mp sent
  obtain ⟨attached, signed, written, cut⟩ := keepAliveRead_eq_some sent
  exact ⟨frame, read, sent, masked_delivered_iff signed written rfl (of_decide_eq_true fits) cut⟩

/-- A keepalive whose keystream flips the header type is taken for too short. -/
theorem masked_keepAlive_lost : ¬ ∀ (hkdf : HkdfSha256) (config : IfacConfig) (buffers : StreamBuffers)
    (packet attached : Packet) (frame : Bytes) (reads : List TcpRead), packet.WellFormed →
    1 ≤ config.ifacLen → StreamBuffers.allocate DEFAULT_HW_MTU = .ok buffers →
    config.attach packet = .ok attached →
    buffers.transmit hkdf (some config) attached = some frame → frame.length ≤ buffers.rxCapacity →
    reads.flatMap TcpRead.bytes = frame →
      (TcpReceiver.new.receiveAll hkdf (some config) buffers.rxCapacity reads).rxChannel =
        [packet.opened] := by
  intro kept
  -- The masked first byte pretends the longer header, and the frame is too short for it.
  have lost : (keepAliveRead .flipping).any (fun sent => sent.1.length ≤ 4098 ∧
      (TcpReceiver.new.receiveAll .flipping (some .sample) 4098 [sent.2]).rxChannel = []) = true := by
    decide +kernel
  obtain ⟨⟨frame, read⟩, sent, lost⟩ := (Option.any_eq_true _ _).mp lost
  obtain ⟨fits, nothing⟩ := of_decide_eq_true lost
  obtain ⟨attached, signed, written, cut⟩ := keepAliveRead_eq_some sent
  have formed : headerOnly.WellFormed :=
    ⟨iff_of_false (by decide) (by decide), iff_of_false (by decide) (by decide), by decide⟩
  have delivered := kept .flipping .sample ⟨2083, 4168, 4098⟩ headerOnly attached frame [read] formed
    (by decide) rfl signed written fits cut
  cases nothing.symm.trans delivered

end Reticulum
