import ReticulumSdk.Iface.Ifac

/-! A peer that shares the access code takes off what the code put on a packet. -/

namespace Reticulum

/-- Bytes are the same when each of their bits is. -/
private theorem byte_ext {first second : UInt8}
    (bits : ∀ bit < 8, first.toBitVec.getLsbD bit = second.toBitVec.getLsbD bit) : first = second :=
  UInt8.toBitVec_inj.mp (BitVec.eq_of_getLsbD_eq bits)

/-- Outside the flag for an access code, masking twice changes nothing, whether the flag was set or not. -/
theorem flag_masked_twice (flags key : UInt8) :
    ((flags ^^^ key ||| 0x80) ^^^ key) &&& 0x7f = flags &&& 0x7f := by
  -- Each bit on its own: the highest is cleared, the others are flipped twice.
  apply byte_ext
  intro bit inside
  simp only [UInt8.toBitVec_and, UInt8.toBitVec_xor, UInt8.toBitVec_or, BitVec.getLsbD_and,
    BitVec.getLsbD_xor, BitVec.getLsbD_or]
  match bit, inside with
  | 0, _ | 1, _ | 2, _ | 3, _ | 4, _ | 5, _ | 6, _ | 7, _ => simp

/-- The bit of the header type is masked like any other. -/
theorem type_masked (flags key : UInt8) :
    (flags ^^^ key ||| 0x80) &&& 0x40 = (flags &&& 0x40) ^^^ (key &&& 0x40) := by
  -- The bit of the header type is not the flag's, so setting the flag does not touch it.
  apply byte_ext
  intro bit inside
  simp only [UInt8.toBitVec_and, UInt8.toBitVec_xor, UInt8.toBitVec_or, BitVec.getLsbD_and,
    BitVec.getLsbD_xor, BitVec.getLsbD_or]
  match bit, inside with
  | 0, _ | 1, _ | 2, _ | 3, _ | 4, _ | 5, _ | 6, _ | 7, _ => simp

/-- The flag that was set is seen whatever the keystream is. -/
theorem flag_or_ne_zero (flags : UInt8) : (flags ||| 0x80) &&& 0x80 ≠ 0 :=
  forall_byte (fun flags => (flags ||| 0x80) &&& 0x80 ≠ 0) (by decide +kernel) flags

/-- Without its flag the header byte of a packet is that of an open one. -/
theorem Header.toMeta_opened (header : Header) :
    header.toMeta &&& 0x7f = { header with ifacFlag := .opened }.toMeta := by
  obtain ⟨ifac, kind, context, propagation, destination, packet, hops⟩ := header
  simp only [Header.toMeta]
  cases ifac <;> cases kind <;> cases context <;> cases propagation <;> cases destination <;>
    cases packet <;> decide

namespace IfacConfig

variable {hkdf : HkdfSha256} {config : IfacConfig} {frame masked signed : Bytes}

/-- An access code has the length that is configured. -/
theorem codeOf_length (config : IfacConfig) (signed : Bytes) :
    (config.codeOf signed).length = config.ifacLen := by
  have short := config.ifacLen_le
  rw [codeOf, List.length_drop, (config.signKey.sign signed).length_eq]
  omega

/-- What a frame is masked with, and that it was long enough to be. -/
theorem maskFrame_eq_ok : config.maskFrame hkdf frame = .ok masked ↔
    config.ifacLen ≠ 0 ∧ 2 + config.ifacLen < frame.length ∧
      masked = frame.mapIdx fun i byte =>
        if i = 0 then (byte ^^^ (config.mask hkdf frame).getD i 0) ||| 0x80
        else if i = 1 ∨ i > config.ifacLen + 1 then byte ^^^ (config.mask hkdf frame).getD i 0
        else byte := by
  unfold maskFrame
  -- A frame too short for its code is refused.
  split
  · simp only [reduceCtorEq, false_iff, not_and]
    omega
  · rename_i long
    simp only [Except.ok.injEq]
    exact ⟨fun same => ⟨by omega, by omega, same.symm⟩, fun ⟨_, _, same⟩ => same.symm⟩

/-- A frame is masked whenever something stands behind its code. -/
theorem maskFrame_ok (coded : config.ifacLen ≠ 0) (long : 2 + config.ifacLen < frame.length) :
    ∃ masked, config.maskFrame hkdf frame = .ok masked :=
  ⟨_, maskFrame_eq_ok.mpr ⟨coded, long, rfl⟩⟩

/-- The access code stands in a masked frame as it stood before. -/
theorem accessCode_masked (done : config.maskFrame hkdf frame = .ok masked) :
    config.accessCode masked = config.accessCode frame := by
  obtain ⟨-, -, rfl⟩ := maskFrame_eq_ok.mp done
  apply List.ext_getElem?
  intro i
  simp only [accessCode, List.getElem?_take, List.getElem?_drop, List.getElem?_mapIdx]
  split
  · -- The code begins behind the first two bytes and is not masked.
    have plain : ¬ (2 + i = 1 ∨ 2 + i > config.ifacLen + 1) := by omega
    simp [plain]
  · rfl

/-- Taking the keystream off again leaves the frame, but for the flag in its first byte. -/
theorem unmask_masked (done : config.maskFrame hkdf frame = .ok masked) :
    config.unmask hkdf masked = frame.mapIdx fun i byte =>
      if i = 0 then (byte ^^^ (config.mask hkdf frame).getD i 0 ||| 0x80) ^^^
        (config.mask hkdf frame).getD i 0 else byte := by
  have code := accessCode_masked done
  obtain ⟨-, -, rfl⟩ := maskFrame_eq_ok.mp done
  -- The code is the same and so is the length, hence the keystream.
  have same : config.mask hkdf (frame.mapIdx fun i byte =>
      if i = 0 then (byte ^^^ (config.mask hkdf frame).getD i 0) ||| 0x80
      else if i = 1 ∨ i > config.ifacLen + 1 then byte ^^^ (config.mask hkdf frame).getD i 0
      else byte) = config.mask hkdf frame := by
    conv => lhs; rw [mask]
    rw [code, List.length_mapIdx]
    rfl
  rw [unmask, same]
  apply List.ext_getElem?
  intro i
  simp only [List.getElem?_mapIdx, Option.map_map]
  congr 1
  funext byte
  -- A byte behind the first is masked exactly where it is unmasked.
  by_cases first : i = 0
  · subst first
    simp
  · have either : i ≤ 1 ∨ i > config.ifacLen + 1 ↔ i = 1 ∨ i > config.ifacLen + 1 := by omega
    by_cases covered : i = 1 ∨ i > config.ifacLen + 1
    · simp [first, either, covered, UInt8.xor_assoc]
    · simp [first, either, covered]

/-- What a masked frame carries is the frame without its flag and its access code. -/
theorem cleanFrame_masked (done : config.maskFrame hkdf frame = .ok masked) :
    config.cleanFrame hkdf masked =
      (frame.getD 0 0 &&& 0x7f) :: frame.getD 1 0 :: frame.drop (2 + config.ifacLen) := by
  obtain ⟨-, long, -⟩ := maskFrame_eq_ok.mp done
  simp only [cleanFrame, unmask_masked done]
  congr 1
  · -- The first byte is masked twice, with the flag set in between.
    have inside : 0 < frame.length := by omega
    simp [List.getD_eq_getElem?_getD, inside, flag_masked_twice]
  · congr 1
    · simp [List.getD_eq_getElem?_getD]
    · apply List.ext_getElem?
      intro i
      simp

/-- The first byte of a masked frame. -/
theorem first_masked (done : config.maskFrame hkdf frame = .ok masked) :
    masked.getD 0 0 = (frame.getD 0 0 ^^^ (config.mask hkdf frame).getD 0 0) ||| 0x80 := by
  obtain ⟨-, long, rfl⟩ := maskFrame_eq_ok.mp done
  have inside : 0 < frame.length := by omega
  simp [List.getD_eq_getElem?_getD, inside]

/-- A masked frame has the flag for an access code. -/
theorem flag_masked (done : config.maskFrame hkdf frame = .ok masked) :
    masked.getD 0 0 &&& 0x80 ≠ 0 := by
  rw [first_masked done]
  exact flag_or_ne_zero _

/-- A frame is decoded exactly to the packet whose signature ends in its access code. -/
theorem decodeFrame_eq_ok {clean : Bytes} : config.decodeFrame hkdf frame = .ok clean ↔
    config.ifacLen ≠ 0 ∧ 2 + config.ifacLen < frame.length ∧ frame.getD 0 0 &&& 0x80 ≠ 0 ∧
      clean = config.cleanFrame hkdf frame ∧ config.accessCode frame = config.codeOf clean := by
  unfold decodeFrame
  -- Each of the checks is one of the conditions, in the order of the source.
  split
  · simp only [reduceCtorEq, false_iff, not_and]
    omega
  · split
    · rename_i plain
      simp only [reduceCtorEq, false_iff, not_and]
      exact fun _ _ flagged => absurd plain flagged
    · rename_i long flagged
      -- The code is compared with the signature of what is carried.
      by_cases signed : config.codeOf (config.cleanFrame hkdf frame) = config.accessCode frame
      · simp only [signed, if_true, Except.ok.injEq]
        constructor
        · rintro rfl
          exact ⟨by omega, by omega, flagged, rfl, signed.symm⟩
        · exact fun ⟨_, _, _, same, _⟩ => same.symm
      · simp only [signed, if_false, reduceCtorEq, false_iff, not_and]
        rintro - - - rfl code
        exact signed code.symm

end IfacConfig

/-- A packet as it comes out of an interface: open, and with the fields that are on the wire. -/
def Packet.opened (packet : Packet) : Packet :=
  { packet with
    header := { packet.header with ifacFlag := .opened }
    ifac := none
    transport := if packet.header.headerType = .type2 then packet.transport else none }

/-- A packet with the address its header asks for is well formed as it comes out. -/
theorem Packet.opened_wellFormed {packet : Packet}
    (addressed : packet.header.headerType = .type2 → packet.transport.isSome = true) :
    packet.opened.WellFormed where
  transport := by
    simp only [TransportConsistent, opened]
    -- The address is left out exactly where the header has none.
    by_cases stamped : packet.header.headerType = .type2
    · simp [stamped, addressed stamped]
    · simp [stamped]
  flagged := by simp [opened]
  coded := by simp [opened]

/-- What is signed of a packet is what an open packet is written as. -/
theorem Packet.signedData_eq_ok {packet : Packet} {signed : Bytes} :
    packet.signedData = .ok signed ↔
      (packet.header.headerType = .type2 → packet.transport.isSome = true) ∧
        signed = packet.opened.wire := by
  -- The flag is cleared in one and not set in the other, and the address follows where there is one.
  have first : packet.opened.header.toMeta = packet.header.toMeta &&& 0b01111111 :=
    packet.header.toMeta_opened.symm
  have plain : packet.opened.writtenCode = [] := rfl
  rw [wire, first, plain]
  unfold signedData writtenAddress
  by_cases stamped : packet.header.headerType = .type2
  · cases held : packet.transport with
    | none => simp [stamped, Bind.bind, Except.bind]
    | some address =>
      simp only [stamped, held, Bind.bind, Except.bind, pure, Except.pure, opened, layout]
      simp
      exact eq_comm
  · simp only [stamped, Bind.bind, Except.bind, pure, Except.pure, opened, layout]
    simp
    exact eq_comm

namespace IfacConfig

variable {hkdf : HkdfSha256} {config : IfacConfig} {packet attached : Packet} {frame : Bytes}
  {room : Nat}

/-- A packet with the access code of what it is written as when it is open. -/
def withCode (config : IfacConfig) (packet : Packet) : Packet :=
  { packet with
    header := { packet.header with ifacFlag := .authenticated }
    ifac := some (config.codeOf packet.opened.wire) }

/-- What `attach` signs and leaves. -/
theorem attach_eq_ok : config.attach packet = .ok attached ↔
    (packet.header.headerType = .type2 → packet.transport.isSome = true) ∧
      attached = config.withCode packet := by
  simp only [attach, bind_eq_ok, Packet.signedData_eq_ok, pure, Except.pure, Except.ok.injEq]
  -- Only signing can fail, where an address is missing.
  constructor
  · rintro ⟨signed, ⟨addressed, rfl⟩, rfl⟩
    exact ⟨addressed, rfl⟩
  · rintro ⟨addressed, rfl⟩
    exact ⟨_, ⟨addressed, rfl⟩, rfl⟩

/-- A packet with its access code is written as an open one with the code behind its first two bytes. -/
theorem wire_withCode (config : IfacConfig) (packet : Packet) :
    ∃ first rest, packet.opened.wire = (first &&& 0x7f) :: packet.header.hops :: rest ∧
      (config.withCode packet).wire =
        first :: packet.header.hops :: (config.codeOf packet.opened.wire ++ rest) := by
  refine ⟨(config.withCode packet).header.toMeta, packet.opened.writtenAddress ++
    (packet.destination.bytes ++ ([packet.context.toByte] ++ packet.data)), ?_, ?_⟩
  · rw [Header.toMeta_opened]
    rfl
  · -- The address on the wire is that of the open packet, for the header has the same type.
    have address : (config.withCode packet).writtenAddress = packet.opened.writtenAddress := by
      by_cases stamped : packet.header.headerType = .type2 <;>
        simp [Packet.writtenAddress, Packet.opened, withCode, stamped]
    rw [← address]
    rfl

/-- The access code makes a packet longer by its length. -/
theorem wire_withCode_length (config : IfacConfig) (packet : Packet) :
    (config.withCode packet).wire.length = packet.opened.wire.length + config.ifacLen := by
  -- The two lists differ by the code between their parts.
  obtain ⟨first, rest, clean, wire⟩ := config.wire_withCode packet
  have coded := config.codeOf_length packet.opened.wire
  have whole := congrArg List.length wire
  have bare := congrArg List.length clean
  simp only [List.length_cons, List.length_append] at whole bare
  omega

/-- The access code stands where a peer looks for it. -/
theorem accessCode_withCode (config : IfacConfig) (packet : Packet) :
    config.accessCode (config.withCode packet).wire = config.codeOf packet.opened.wire := by
  obtain ⟨first, rest, -, wire⟩ := config.wire_withCode packet
  rw [wire]
  exact List.take_left' (config.codeOf_length _)

/-- What is transmitted of a packet with its code is what it is written as, masked. -/
theorem maskFrame_of_attach (done : config.attach packet = .ok attached)
    (encoded : encodeTx hkdf (some config) attached room = .ok frame) :
    config.maskFrame hkdf (config.withCode packet).wire = .ok frame := by
  obtain ⟨buffer, written, masked⟩ := bind_eq_ok.mp encoded
  obtain ⟨-, rfl⟩ := attach_eq_ok.mp done
  rw [← (Packet.serialize_eq_ok.mp written).2.2.1]
  exact masked

/-- What is transmitted of a packet is longer than the open packet by the access code. -/
theorem encodeTx_length (done : config.attach packet = .ok attached)
    (encoded : encodeTx hkdf (some config) attached room = .ok frame) :
    frame.length = packet.opened.wire.length + config.ifacLen := by
  -- Masking keeps the length.
  obtain ⟨-, -, shape⟩ := maskFrame_eq_ok.mp (maskFrame_of_attach done encoded)
  rw [shape, List.length_mapIdx, config.wire_withCode_length]

/-- A packet with its access code is transmitted wherever there is room, unless the code is empty. -/
theorem encodeTx_ok (done : config.attach packet = .ok attached) (coded : config.ifacLen ≠ 0)
    (fits : packet.opened.wire.length + config.ifacLen ≤ room) :
    ∃ frame, encodeTx hkdf (some config) attached room = .ok frame := by
  obtain ⟨addressed, rfl⟩ := attach_eq_ok.mp done
  have length := config.wire_withCode_length packet
  let buffer : OutputBuffer := ⟨(config.withCode packet).wire, room, length ▸ fits⟩
  have written : (config.withCode packet).serialize (.new room) = .ok buffer :=
    Packet.serialize_eq_ok.mpr ⟨fun _ => rfl, addressed, rfl, rfl⟩
  -- Beside the flags and the hops there is an address at least.
  have header : 2 < packet.opened.wire.length := by
    rw [Packet.wire_length (Packet.opened_wellFormed addressed).transport.mp, Packet.wireLength]
    omega
  have long : 2 + config.ifacLen < (config.withCode packet).wire.length := by omega
  obtain ⟨frame, masked⟩ := @maskFrame_ok hkdf _ _ coded long
  exact ⟨frame, bind_eq_ok.mpr ⟨buffer, written, masked⟩⟩

/-- A peer with the same configuration takes the access code off. -/
theorem decodeFrame_encodeTx (done : config.attach packet = .ok attached)
    (encoded : encodeTx hkdf (some config) attached room = .ok frame) :
    config.decodeFrame hkdf frame = .ok packet.opened.wire := by
  have masked := maskFrame_of_attach done encoded
  obtain ⟨filled, long, shape⟩ := maskFrame_eq_ok.mp masked
  have length := congrArg List.length shape
  rw [List.length_mapIdx] at length
  refine decodeFrame_eq_ok.mpr ⟨filled, by rw [length]; exact long, flag_masked masked, ?_, ?_⟩
  · -- Behind the code the frame is the packet that was signed.
    obtain ⟨first, rest, clean, wire⟩ := config.wire_withCode packet
    have behind : (config.codeOf packet.opened.wire ++ rest).drop config.ifacLen = rest :=
      List.drop_left' (config.codeOf_length _)
    refine clean.trans ?_
    rw [cleanFrame_masked masked, wire, Nat.add_comm]
    exact congrArg (fun back => (first &&& 0x7f) :: packet.header.hops :: back) behind.symm
  · rw [accessCode_masked masked, accessCode_withCode]

/-- A peer with the same configuration receives the open packet. -/
theorem decodeRx_of_attach (done : config.attach packet = .ok attached)
    (encoded : encodeTx hkdf (some config) attached room = .ok frame) :
    decodeRx hkdf (some config) frame = .ok packet.opened := by
  have formed := Packet.opened_wellFormed (attach_eq_ok.mp done).1
  exact bind_eq_ok.mpr ⟨_, decodeFrame_encodeTx done encoded, formed.deserialize_wire⟩

end IfacConfig

/-- A keystream of counted bytes, for concrete runs. -/
def HkdfSha256.sample : HkdfSha256 where
  expand _ ikm length := if HKDF_MAX_LENGTH < length then none
    else some ⟨(List.range length).map fun i => .ofNat (i * 37) + ikm.headD 0, by simp⟩
  fails_iff _ _ _ := by split <;> simp [*]

/-- A configuration whose signatures repeat the length of what is signed, for concrete runs. -/
def IfacConfig.sample : IfacConfig where
  signKey := {
    verifyingKey := ⟨List.replicate PUBLIC_KEY_LENGTH 0, List.length_replicate⟩
    sign := fun message => ⟨List.replicate SIGNATURE_LENGTH (.ofNat message.length), List.length_replicate⟩ }
  ifacKey := List.replicate 64 7
  ifacLen := 8
  ifacLen_le := by decide

/--
Access codes are taken off by every peer that has them: what is sent of a packet with its code is
received as the open packet, and no frame is received whose code is not the end of the signature of
what it carries.
-/
theorem decodeRx_encodeTx (hkdf : HkdfSha256) (config : IfacConfig) :
    (∀ packet attached room frame, config.attach packet = .ok attached →
      encodeTx hkdf (some config) attached room = .ok frame →
        decodeRx hkdf (some config) frame = .ok packet.opened) ∧
    (∀ frame packet, decodeRx hkdf (some config) frame = .ok packet →
      config.accessCode frame = config.codeOf (config.cleanFrame hkdf frame)) := by
  constructor
  · exact fun packet attached room frame => IfacConfig.decodeRx_of_attach
  · intro frame packet received
    -- Whatever is received was decoded first, which checks the code.
    obtain ⟨clean, decoded, -⟩ := bind_eq_ok.mp received
    obtain ⟨-, -, -, rfl, signed⟩ := IfacConfig.decodeFrame_eq_ok.mp decoded
    exact signed

/-- A packet on its way through a transport. -/
private def relayedSample : Packet where
  header := { headerType := .type2, propagationType := .transport, hops := 2 }
  destination := .filled 0x11
  transport := some (.filled 0x22)
  context := .linkRTT
  data := [1, 2, 3]

/-- A packet is sent with its access code and received as it was. -/
theorem decodeRx_encodeTx_relayed : ∃ attached frame,
    IfacConfig.sample.attach relayedSample = .ok attached ∧
      encodeTx .sample (some .sample) attached 64 = .ok frame ∧
      decodeRx .sample (some .sample) frame = .ok relayedSample.opened ∧
      IfacConfig.sample.accessCode frame =
        IfacConfig.sample.codeOf (IfacConfig.sample.cleanFrame .sample frame) := by
  have sent : passes (IfacConfig.sample.attach relayedSample) (fun attached =>
      passes (encodeTx .sample (some .sample) attached 64) fun _ => true) = true := by
    decide +kernel
  obtain ⟨attached, signed, sent⟩ := exists_of_passes sent
  obtain ⟨frame, encoded, -⟩ := exists_of_passes sent
  have received := (decodeRx_encodeTx .sample .sample).1 _ _ _ _ signed encoded
  exact ⟨attached, frame, signed, encoded, received, (decodeRx_encodeTx .sample .sample).2 _ _ received⟩

/-- A packet with one address on the wire and another in memory. -/
private def strayAddress : Packet where
  header := {}
  destination := .filled 0x11
  transport := some (.filled 0x22)
  context := .none
  data := []

/-- An address that a header does not ask for is lost on the way. -/
theorem stray_address_lost : ¬ ∀ (hkdf : HkdfSha256) (config : IfacConfig) packet attached room frame,
    1 ≤ config.ifacLen → config.attach packet = .ok attached →
      encodeTx hkdf (some config) attached room = .ok frame →
        decodeRx hkdf (some config) frame =
          .ok { packet with header := { packet.header with ifacFlag := .opened }, ifac := none } := by
  intro kept
  -- A packet without an address in its header, and with one in its fields, comes out without it.
  have sent : passes (IfacConfig.sample.attach strayAddress) (fun attached =>
      passes (encodeTx .sample (some .sample) attached 64) fun frame =>
        passes (decodeRx .sample (some .sample) frame) fun packet => packet.transport = none) = true := by
    decide +kernel
  obtain ⟨attached, signed, sent⟩ := exists_of_passes sent
  obtain ⟨frame, encoded, sent⟩ := exists_of_passes sent
  obtain ⟨packet, received, lost⟩ := exists_of_passes sent
  cases received.symm.trans (kept .sample .sample strayAddress attached 64 frame (by decide) signed encoded)
  cases of_decide_eq_true lost

end Reticulum
