import ReticulumSdk.Crypt.Fernet
import ReticulumSdk.Link.State

/-! Payloads that cross a link, and the scratch buffer they are decrypted into. -/

namespace Reticulum

namespace Link

/--
`Link::decrypt_into_owned`, with the length of the scratch buffer before and after: it only grows,
to the larger of the link's and the network's data unit.
-/
def decryptIntoOwned (link : Link) (fernet : Fernet) (text : Bytes) (decryptBuffer : Nat) :
    Except RnsError Bytes × Nat :=
  let decryptBufLen := max link.mdu PACKET_MDU
  let buffer := if decryptBuffer < decryptBufLen then decryptBufLen else decryptBuffer
  (fernet.identityDecrypt text buffer, buffer)

/-- What a link encrypted, its peer decrypts exactly when the padded payload fits the buffer. -/
theorem decryptIntoOwned_encrypted {link peer : Link} {fernet : Fernet} {iv : Iv} {data : Bytes}
    {context : PacketContext} {packet : Packet} (lawful : fernet.suite.Lawful)
    (negotiated : peer.mtu = link.mtu)
    (built : link.encryptedDataPacket (fernet.cipher iv) data context = .ok packet)
    (decryptBuffer : Nat) :
    (peer.decryptIntoOwned fernet packet.data decryptBuffer).1 =
      if paddedLength data.length ≤ max decryptBuffer (max link.mdu PACKET_MDU) then .ok data
      else .error .cryptoError := by
  -- The token decrypts wherever the buffer holds the padded text, and both ends have the same units.
  obtain ⟨written, encrypted, -, -, rfl⟩ := encryptedDataPacket_ok built
  obtain ⟨room, cipherText, padded, rfl⟩ := Fernet.cipher_run encrypted
  have units : peer.mdu = link.mdu := by rw [mdu, mdu, negotiated]
  have buffer : (if decryptBuffer < max link.mdu PACKET_MDU then max link.mdu PACKET_MDU
      else decryptBuffer) = max decryptBuffer (max link.mdu PACKET_MDU) := by
    split <;> omega
  simp only [decryptIntoOwned, units, buffer, Fernet.identityDecrypt_token lawful padded]

end Link

/--
A payload that one end of a link encrypted is what the other end, with the same key and the same
negotiated size, decrypts, exactly when its padded length fits the scratch buffer.
-/
theorem payload_round_trip_iff_fits {link peer : Link} {suite : CipherSuite} {derivedKey : Bytes}
    {iv : Iv} {data : Bytes} {context : PacketContext} {packet : Packet} (lawful : suite.Lawful)
    (negotiated : peer.mtu = link.mtu)
    (built : link.encryptedDataPacket ((Fernet.ofDerivedKey suite derivedKey).cipher iv) data
      context = .ok packet) (decryptBuffer : Nat) :
    (peer.decryptIntoOwned (.ofDerivedKey suite derivedKey) packet.data decryptBuffer).1 = .ok data ↔
      data.length / 16 * 16 + 16 ≤ max decryptBuffer (max link.mdu 464) := by
  -- The padded length is compared with the buffer the receiving end allocates.
  have decrypted := Link.decryptIntoOwned_encrypted lawful negotiated built decryptBuffer
  rw [decrypted]
  have padded : paddedLength data.length = data.length / 16 * 16 + 16 := rfl
  have unit : PACKET_MDU = 464 := rfl
  rw [padded, unit]
  split <;> simp_all

namespace CipherSuite

/-- PKCS7 padding: as many bytes as are missing to a whole block, each saying how many. -/
def pad (text : Bytes) : Bytes :=
  text ++ List.replicate (16 - text.length % 16) (UInt8.ofNat (16 - text.length % 16))

/-- Padding with no encryption, for concrete runs. -/
def plain : CipherSuite where
  encryptPadded _ _ text room := if room < paddedLength text.length then none else some (pad text)
  decryptPadded _ _ cipherText room :=
    if room < cipherText.length then none
    else some (cipherText.take (cipherText.length - (cipherText.getLastD 0).toNat))
  hmac key data := .generate (key ++ data)

/-- A padded text has the padded length. -/
theorem pad_length (text : Bytes) : (pad text).length = paddedLength text.length := by
  simp only [pad, List.length_append, List.length_replicate, paddedLength, RETICULUM_AES_BLOCK_SIZE]
  omega

/-- The last byte of a padded text says how much was added. -/
theorem pad_last (text : Bytes) : ((pad text).getLastD 0).toNat = 16 - text.length % 16 := by
  -- The padding repeats its own length, which is at least one.
  obtain ⟨more, counted⟩ : ∃ more, 16 - text.length % 16 = more + 1 :=
    ⟨15 - text.length % 16, by omega⟩
  have last : (pad text).getLastD 0 = UInt8.ofNat (more + 1) := by
    rw [pad, counted, List.replicate_succ', ← List.append_assoc]
    simp
  rw [last, counted, UInt8.toNat_ofNat']
  omega

/-- Padding alone keeps the laws of padded encryption. -/
theorem plain_lawful : plain.Lawful where
  padded _ _ text room cipherText encrypted := by
    simp only [plain, Option.ite_none_left_eq_some, Option.some.injEq] at encrypted
    rw [← encrypted.2, pad_length]
  short _ _ cipherText room small := by simp [plain, small]
  inverse _ _ text room cipherText room' encrypted fits := by
    simp only [plain, Option.ite_none_left_eq_some, Option.some.injEq] at encrypted
    obtain ⟨-, rfl⟩ := encrypted
    -- The last byte of the padding is its length, so cutting it off gives the text.
    have front : (pad text).length - ((pad text).getLastD 0).toNat = text.length := by
      rw [pad_last, pad_length]
      simp only [paddedLength, RETICULUM_AES_BLOCK_SIZE]
      omega
    simp only [plain, Nat.not_lt.mpr fits, if_false, front, Option.some.injEq]
    exact List.take_left

end CipherSuite

/-- A link for concrete runs with a negotiated size. -/
private def sized (mtu : Nat) : Link := { Link.sample with mtu := mtu }

/-- A vector for concrete runs. -/
private def zeroIv : Iv := .zero

/-- A key for concrete runs. -/
private def zeroKey : Bytes := List.replicate DERIVED_KEY_LENGTH 0

/-- On a link of the default size a full payload comes back. -/
theorem payload_round_trip_iff_fits_default :
    ∃ packet, (sized 500).encryptedDataPacket ((Fernet.ofDerivedKey .plain zeroKey).cipher zeroIv)
        (List.replicate 431 7) .none = .ok packet ∧
      ((sized 500).decryptIntoOwned (.ofDerivedKey .plain zeroKey) packet.data 0).1 =
        .ok (List.replicate 431 7) := by
  -- At the default size 431 bytes are the most that fit.
  have built : passes ((sized 500).encryptedDataPacket
      ((Fernet.ofDerivedKey .plain zeroKey).cipher zeroIv) (List.replicate 431 7) .none)
      (fun _ => true) = true := by
    decide +kernel
  obtain ⟨packet, built, -⟩ := exists_of_passes built
  exact ⟨packet, built, (payload_round_trip_iff_fits CipherSuite.plain_lawful rfl built 0).mpr
    (by rw [List.length_replicate]; decide)⟩

/-- On a link with room for 479 bytes a full payload is encrypted and cannot be decrypted. -/
theorem full_payload_not_decrypted :
    (sized 548).mdu = 479 ∧ ∃ packet,
      (sized 548).encryptedDataPacket ((Fernet.ofDerivedKey .plain zeroKey).cipher zeroIv)
        (List.replicate 479 7) .none = .ok packet ∧
      ((sized 548).decryptIntoOwned (.ofDerivedKey .plain zeroKey) packet.data 0).1 =
        .error .cryptoError := by
  -- A payload as large as the unit allows pads to one byte more than the buffer.
  have built : passes ((sized 548).encryptedDataPacket
      ((Fernet.ofDerivedKey .plain zeroKey).cipher zeroIv) (List.replicate 479 7) .none)
      (fun _ => true) = true := by
    decide +kernel
  obtain ⟨packet, built, -⟩ := exists_of_passes built
  refine ⟨by decide, packet, built, ?_⟩
  have lawful : (Fernet.ofDerivedKey .plain zeroKey).suite.Lawful := CipherSuite.plain_lawful
  rw [Link.decryptIntoOwned_encrypted lawful rfl built 0]
  exact if_neg (by rw [List.length_replicate]; decide)

end Reticulum
