import ReticulumSdk.Iface.IfacLaws
import ReticulumSdk.Iface.TcpClient
import ReticulumSdk.Link.Payload

/-! The buffers of an interface against the packets of a link: which of them fit with an access code. -/

namespace Reticulum

/-- What an interface sends for a packet: the packet, with an access code if one is configured. -/
def protect (ifacConfig : Option IfacConfig) (packet : Packet) : Except RnsError Packet :=
  match ifacConfig with
  | some config => config.attach packet
  | none => .ok packet

/-- The length of the access codes of an interface. -/
def codeLength (ifacConfig : Option IfacConfig) : Nat := ifacConfig.elim 0 IfacConfig.ifacLen

/-- An interface masks what it sends unless it has a configuration with empty codes. -/
def Coded (ifacConfig : Option IfacConfig) : Prop := ∀ config ∈ ifacConfig, config.ifacLen ≠ 0

/-- The length of a frame in which every byte is escaped. -/
def worstEscaped (length : Nat) : Nat := 2 * length + HDLC_FLAG_OVERHEAD

/-- A packet fits the transmit buffers of an interface, and the receive buffer of one with the same limit. -/
def FitsBuffers (hkdf : HkdfSha256) (ifacConfig : Option IfacConfig) (hwMtu : Nat) (packet : Packet) : Prop :=
  ∃ attached frame, protect ifacConfig packet = .ok attached ∧
    encodeTx hkdf ifacConfig attached (txFrameBufferSizes hwMtu).1 = .ok frame ∧
    (∃ encoded, Hdlc.encode frame (.new (txFrameBufferSizes hwMtu).2) = .ok encoded) ∧
    worstEscaped frame.length ≤ rxFrameCapacity hwMtu

variable {hkdf : HkdfSha256} {ifacConfig : Option IfacConfig} {packet attached : Packet} {frame : Bytes}
  {room hwMtu : Nat}

/-- An open packet is sent as long as it is written, and as long as the access code on top. -/
theorem protected_length (opened : packet.opened = packet) (done : protect ifacConfig packet = .ok attached)
    (encoded : encodeTx hkdf ifacConfig attached room = .ok frame) :
    frame.length = packet.wire.length + codeLength ifacConfig ∧ Coded ifacConfig := by
  cases ifacConfig with
  | none =>
    -- Without a code the frame is the packet.
    obtain rfl := Except.ok.inj done
    obtain ⟨buffer, written, rest⟩ := bind_eq_ok.mp encoded
    obtain rfl := Except.ok.inj rest
    rw [(Packet.serialize_eq_ok.mp written).2.2.1]
    exact ⟨rfl, nofun⟩
  | some config =>
    -- With one the frame is masked, which no empty code allows.
    have coded := (IfacConfig.maskFrame_eq_ok.mp (IfacConfig.maskFrame_of_attach done encoded)).1
    refine ⟨opened ▸ IfacConfig.encodeTx_length done encoded, fun other same => ?_⟩
    obtain rfl := Option.some.inj same
    exact coded

/-- An open packet is sent wherever it has room with its code. -/
theorem protected_ok (opened : packet.opened = packet)
    (addressed : packet.header.headerType = .type2 → packet.transport.isSome = true)
    (coded : Coded ifacConfig) (fits : packet.wire.length + codeLength ifacConfig ≤ room) :
    ∃ attached frame, protect ifacConfig packet = .ok attached ∧
      encodeTx hkdf ifacConfig attached room = .ok frame := by
  cases ifacConfig with
  | none =>
    -- An open packet does not ask for a code.
    have plain : packet.IfacConsistent := by
      intro flagged
      rw [← opened] at flagged
      cases flagged
    let buffer : OutputBuffer := ⟨packet.wire, room, fits⟩
    have written : packet.serialize (.new room) = .ok buffer :=
      Packet.serialize_eq_ok.mpr ⟨plain, addressed, rfl, rfl⟩
    exact ⟨packet, packet.wire, rfl, bind_eq_ok.mpr ⟨buffer, written, rfl⟩⟩
  | some config =>
    -- With a configuration the code is attached first, and the frame has room for both.
    have done : config.attach packet = .ok (config.withCode packet) :=
      IfacConfig.attach_eq_ok.mpr ⟨addressed, rfl⟩
    have room : packet.opened.wire.length + config.ifacLen ≤ room := by
      rw [opened]
      exact fits
    obtain ⟨frame, encoded⟩ := @IfacConfig.encodeTx_ok hkdf _ _ _ _ done (coded config rfl) room
    exact ⟨_, frame, done, encoded⟩

/-- What the receiver's buffer holds is what the limit allows, as far as lengths are counted. -/
theorem worstEscaped_le_iff {length : Nat} :
    worstEscaped length ≤ rxFrameCapacity hwMtu ↔ length ≤ min hwMtu (isizeRange - 2) := by
  -- Doubling saturates from half of the range on.
  have half : isizeRange + isizeRange = usizeRange := rfl
  have wide : 2 < isizeRange := by decide
  simp only [worstEscaped, rxFrameCapacity, saturatingAdd, saturatingMul, HDLC_FLAG_OVERHEAD]
  omega

/-- What the receiver's buffer holds, the buffers of the transmitter hold. -/
theorem txFrameBufferSizes_fits {length : Nat} (short : length ≤ min hwMtu (isizeRange - 2)) :
    length ≤ (txFrameBufferSizes hwMtu).1 ∧ 2 * length + 2 ≤ (txFrameBufferSizes hwMtu).2 := by
  -- The reserve only makes them larger, and they saturate beyond every length.
  have half : isizeRange + isizeRange = usizeRange := rfl
  have wide : 2 < isizeRange := by decide
  simp only [txFrameBufferSizes, saturatingAdd, saturatingMul, HDLC_FLAG_OVERHEAD]
  generalize isizeRange = signed at half wide short
  generalize usizeRange = unsigned at half ⊢
  omega

/-- An open packet fits the buffers exactly when it fits the limit together with its code. -/
theorem fitsBuffers_iff (opened : packet.opened = packet)
    (addressed : packet.header.headerType = .type2 → packet.transport.isSome = true) :
    FitsBuffers hkdf ifacConfig hwMtu packet ↔ Coded ifacConfig ∧
      packet.wire.length + codeLength ifacConfig ≤ min hwMtu (isizeRange - 2) := by
  constructor
  · intro ⟨attached, frame, done, encoded, _, received⟩
    -- The frame's length is that of the packet and the code, and the receiver's limit bounds it.
    obtain ⟨length, coded⟩ := protected_length opened done encoded
    exact ⟨coded, length ▸ worstEscaped_le_iff.mp received⟩
  · intro ⟨coded, short⟩
    -- The receiver's buffer is the smallest of the three.
    obtain ⟨room, framed⟩ := txFrameBufferSizes_fits short
    obtain ⟨attached, frame, done, encoded⟩ := @protected_ok hkdf _ _ _ opened addressed coded room
    have length := (protected_length opened done encoded).1
    rw [← length] at short framed
    obtain ⟨escaped, written, -⟩ := Hdlc.encode_ok framed
    exact ⟨attached, frame, done, encoded, ⟨escaped, written⟩, worstEscaped_le_iff.mpr short⟩

/-- A packet that a link encrypts is open, and its length is that of the padded payload and the overhead. -/
theorem Link.encryptedDataPacket_length {link : Link} {fernet : Fernet} {iv : Iv} {data : Bytes}
    {context : PacketContext} (lawful : fernet.suite.Lawful)
    (built : link.encryptedDataPacket (fernet.cipher iv) data context = .ok packet) :
    packet.opened = packet ∧ packet.header.headerType = .type1 ∧
      packet.wire.length = RETICULUM_HEADER_MINSIZE + FERNET_OVERHEAD_SIZE + paddedLength data.length := by
  -- The packet is built from the token alone, so its length is read off the token's parts.
  obtain ⟨token, encrypted, -, -, rfl⟩ := Link.encryptedDataPacket_ok built
  obtain ⟨_, cipherText, padded, rfl⟩ := Fernet.cipher_run encrypted
  refine ⟨rfl, rfl, ?_⟩
  -- The data is a token, which is longer than the padded payload by its vector and its tag.
  have address : (Link.header .data).headerType = .type2 → (none : Option AddressHash).isSome = true :=
    nofun
  rw [Packet.wire_length address, Packet.wireLength, (fernet.token_parts iv cipherText).1,
    lawful.padded _ _ _ _ _ padded]
  simp only [Packet.optionalLength, Link.header, RETICULUM_HEADER_MINSIZE, ADDRESS_HASH_SIZE]
  simp
  omega

/--
The buffers of an interface hold a packet of a link exactly when the header, the padded payload with its
token and the access code are together within the hardware limit (and can be doubled); the reserve for a
header does not help, for the receiver has none.
-/
theorem linkPacket_fits_iff (hkdf : HkdfSha256) (ifacConfig : Option IfacConfig) (hwMtu : Nat) (link : Link)
    (fernet : Fernet) (iv : Iv) (data : Bytes) (context : PacketContext) (packet : Packet)
    (lawful : fernet.suite.Lawful)
    (built : link.encryptedDataPacket (fernet.cipher iv) data context = .ok packet) :
    FitsBuffers hkdf ifacConfig hwMtu packet ↔ Coded ifacConfig ∧
      RETICULUM_HEADER_MINSIZE + FERNET_OVERHEAD_SIZE + paddedLength data.length + codeLength ifacConfig ≤
        min hwMtu (isizeRange - 2) := by
  obtain ⟨opened, kind, length⟩ := Link.encryptedDataPacket_length lawful built
  rw [fitsBuffers_iff opened (fun stamped => by rw [kind] at stamped; cases stamped), length]

/-- A suite and a key for concrete runs. -/
private def plainFernet : Fernet := .ofDerivedKey .plain (List.replicate DERIVED_KEY_LENGTH 0)

/-- A vector for concrete runs. -/
private def blankIv : Iv := .zero

/-- A full payload fits an interface of the same size that has no access code. -/
theorem linkPacket_fits_iff_open : ∃ packet,
    Link.sample.encryptedDataPacket (plainFernet.cipher blankIv) (List.replicate 431 7) .none = .ok packet ∧
      FitsBuffers .sample none 500 packet := by
  -- A header, a token and 27 blocks are 499 bytes.
  have built : passes (Link.sample.encryptedDataPacket (plainFernet.cipher blankIv)
      (List.replicate 431 7) .none) (fun _ => true) = true := by
    decide +kernel
  obtain ⟨packet, built, -⟩ := exists_of_passes built
  -- They are within the limit of 500 bytes, and no code is added.
  have small : RETICULUM_HEADER_MINSIZE + FERNET_OVERHEAD_SIZE +
      paddedLength (List.replicate 431 (7 : UInt8)).length + codeLength none ≤
        min 500 (isizeRange - 2) := by
    rw [List.length_replicate]
    decide
  exact ⟨packet, built, (linkPacket_fits_iff .sample none 500 _ _ _ _ _ packet CipherSuite.plain_lawful
    built).mpr ⟨nofun, small⟩⟩

/-- A configuration whose access codes are whole signatures. -/
private def wholeSignatures : IfacConfig := { IfacConfig.sample with ifacLen := 64, ifacLen_le := le_rfl }

/-- With the longest access codes a full payload does not fit an interface of the same size. -/
theorem full_payload_overflows : ¬ ∀ (hkdf : HkdfSha256) (ifacConfig : Option IfacConfig) (hwMtu : Nat)
    (link : Link) (fernet : Fernet) (iv : Iv) (data : Bytes) (packet : Packet),
      fernet.suite.Lawful → 500 ≤ hwMtu → 500 ≤ link.mtu → link.mtu ≤ hwMtu → Coded ifacConfig →
        data.length ≤ computeLinkMdu link.mtu →
          link.encryptedDataPacket (fernet.cipher iv) data .none = .ok packet →
            FitsBuffers hkdf ifacConfig hwMtu packet := by
  intro fits
  -- The cipher of the sample pads 431 bytes to 432 and encrypts them.
  have built : passes (Link.sample.encryptedDataPacket (plainFernet.cipher blankIv)
      (List.replicate 431 7) .none) (fun _ => true) = true := by
    decide +kernel
  obtain ⟨packet, built, -⟩ := exists_of_passes built
  obtain ⟨opened, -, length⟩ := Link.encryptedDataPacket_length CipherSuite.plain_lawful built
  have coded : Coded (some wholeSignatures) := by
    intro config same
    obtain rfl := Option.some.inj same
    decide
  -- The frame is 563 bytes long, which the buffer for a serialized packet does not hold.
  obtain ⟨attached, frame, done, encoded, -, received⟩ := fits .sample (some wholeSignatures) 500 _ _ _ _
    packet CipherSuite.plain_lawful le_rfl le_rfl le_rfl coded
    (by rw [List.length_replicate]; decide) built
  have short := worstEscaped_le_iff.mp received
  rw [(protected_length opened done encoded).1, length, List.length_replicate] at short
  exact absurd short (by decide)

end Reticulum
