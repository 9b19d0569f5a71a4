import ReticulumSdk.Crypt.Fernet
import ReticulumSdk.Link.State

/-! What a link is established by: its address, the size its request signals, and the proof of its destination. -/

namespace Reticulum

/-- `AddressHash::new_from_hash`. -/
def AddressHash.newFromHash (hash : Hash) : AddressHash where
  bytes := hash.bytes.take ADDRESS_HASH_SIZE
  length_eq := by rw [List.length_take, hash.length_eq]; rfl

/-- An address of one byte repeated, for concrete runs. -/
def AddressHash.filled (byte : UInt8) : AddressHash :=
  ⟨List.replicate ADDRESS_HASH_SIZE byte, List.length_replicate⟩

/-- `LINK_MTU_SIZE`. -/
def LINK_MTU_SIZE : Nat := 3

/-- `LINK_MODE_AES256_CBC`. -/
def LINK_MODE_AES256_CBC : Nat := 1

/-- `link_signalling_bytes`: the mode in three bits and the size in twenty-one. -/
def linkSignallingBytes (mtu : Nat) : Bytes :=
  let value := mtu % 2 ^ 21 + LINK_MODE_AES256_CBC * 2 ^ 21
  [UInt8.ofNat (value / 2 ^ 16), UInt8.ofNat (value / 2 ^ 8), UInt8.ofNat value]

/-- `mtu_from_signalling_bytes`. -/
def mtuFromSignallingBytes : Bytes → Nat
  | b0 :: b1 :: b2 :: _ => (b0.toNat * 2 ^ 16 + b1.toNat * 2 ^ 8 + b2.toNat) % 2 ^ 21
  | _ => RETICULUM_MTU

/-- `mode_from_signalling_bytes`. -/
def modeFromSignallingBytes : Bytes → Nat
  | b0 :: _ :: _ :: _ => b0.toNat / 2 ^ 5
  | _ => LINK_MODE_AES256_CBC

-- A size of two bytes is read back beside its mode.
example : linkSignallingBytes 500 = [0x20, 0x01, 0xF4] ∧
    mtuFromSignallingBytes (linkSignallingBytes 500) = 500 ∧
    modeFromSignallingBytes (linkSignallingBytes 500) = LINK_MODE_AES256_CBC := by
  decide

/-- Three bytes hold every size below their range, beside the mode. -/
theorem mtuFromSignallingBytes_linkSignallingBytes {mtu : Nat} (small : mtu < 2 ^ 21) :
    mtuFromSignallingBytes (linkSignallingBytes mtu) = mtu := by
  -- The bytes are the digits of the value to the base 256, of which the mode is the topmost part.
  simp only [linkSignallingBytes, mtuFromSignallingBytes, LINK_MODE_AES256_CBC, UInt8.toNat_ofNat']
  omega

/-- Whatever the bytes, the size they signal is in range. -/
theorem mtuFromSignallingBytes_lt (bytes : Bytes) : mtuFromSignallingBytes bytes < 2 ^ 21 := by
  unfold mtuFromSignallingBytes
  split
  · exact Nat.mod_lt _ (by decide)
  · decide

/-- The mode stands beside every size in range. -/
theorem modeFromSignallingBytes_linkSignallingBytes (mtu : Nat) :
    modeFromSignallingBytes (linkSignallingBytes mtu) = LINK_MODE_AES256_CBC := by
  simp only [linkSignallingBytes, modeFromSignallingBytes, LINK_MODE_AES256_CBC, UInt8.toNat_ofNat']
  omega

namespace Packet

/-- What `LinkId::from` feeds the digest: no signalling behind the two keys. -/
def linkHashed (packet : Packet) : Bytes :=
  (packet.header.toMeta &&& 0b00001111) ::
    (packet.destination.bytes ++ packet.context.toByte :: packet.data.take (PUBLIC_KEY_LENGTH * 2))

/-- `LinkId::from`. -/
def linkId (packet : Packet) : AddressHash := .newFromHash (.generate packet.linkHashed)

end Packet

/-- A public key, always of its full width. -/
structure PublicKey where
  bytes : Bytes
  length_eq : bytes.length = PUBLIC_KEY_LENGTH
  deriving DecidableEq

/-- What the curve crates offer: which bytes are a verifying key, and which signatures hold under it. -/
structure Curves where
  /-- `VerifyingKey::from_bytes` accepts them. -/
  validKey : PublicKey → Bool
  /-- `VerifyingKey::verify_strict`. -/
  verify : PublicKey → Bytes → Signature → Bool

/-- A key of one byte repeated, for concrete runs. -/
def PublicKey.filled (byte : UInt8) : PublicKey :=
  ⟨List.replicate PUBLIC_KEY_LENGTH byte, List.length_replicate⟩

/-- Keys under which the one signature of a text is its own front, for concrete runs. -/
def Curves.sample : Curves where
  validKey _ := true
  verify _ data signature := signature = Link.sampleSign data

/-- `Identity`, whose address hash is computed from the keys. -/
structure Identity where
  publicKey : PublicKey
  verifyingKey : PublicKey
  deriving DecidableEq

/-- `Identity::new_from_slices`. -/
def Identity.newFromSlices (curves : Curves) (publicKey verifyingKey : PublicKey) :
    Except RnsError Identity :=
  if curves.validKey verifyingKey then .ok ⟨publicKey, verifyingKey⟩ else .error .cryptoError

/-- `DestinationDesc`, without the name that only announces carry. -/
structure DestinationDesc where
  identity : Identity
  addressHash : AddressHash
  deriving DecidableEq

/-- `MIN_PROOF_LEN`: a signature and a key. -/
def MIN_PROOF_LEN : Nat := SIGNATURE_LENGTH + PUBLIC_KEY_LENGTH

/-- `MTU_PROOF_LEN`: the same with a signalled size. -/
def MTU_PROOF_LEN : Nat := SIGNATURE_LENGTH + PUBLIC_KEY_LENGTH + LINK_MTU_SIZE

/-- What a destination signs to prove a link: its id, both keys and the signalled size. -/
def proofSigned (id : AddressHash) (publicKey verifyingKey : PublicKey) (signalling : Bytes) : Bytes :=
  id.bytes ++ publicKey.bytes ++ verifyingKey.bytes ++ signalling

/-- `validate_proof_packet`: the peer's identity and the confirmed size. -/
def validateProofPacket (curves : Curves) (destination : DestinationDesc) (id : AddressHash)
    (packet : Packet) : Except RnsError (Identity × Nat) :=
  let data := packet.data
  if length : data.length = MIN_PROOF_LEN ∨ data.length = MTU_PROOF_LEN then
    have long : SIGNATURE_LENGTH + PUBLIC_KEY_LENGTH ≤ data.length := by
      simp only [MIN_PROOF_LEN, MTU_PROOF_LEN] at length
      omega
    let signature : Signature := ⟨data.take SIGNATURE_LENGTH, by rw [List.length_take]; omega⟩
    let publicKey : PublicKey := ⟨(data.drop SIGNATURE_LENGTH).take PUBLIC_KEY_LENGTH, by
      rw [List.length_take, List.length_drop]; omega⟩
    let verifyingKey := destination.identity.verifyingKey
    let signalling := data.drop (SIGNATURE_LENGTH + PUBLIC_KEY_LENGTH)
    if data.length ≥ MTU_PROOF_LEN ∧ modeFromSignallingBytes signalling ≠ LINK_MODE_AES256_CBC then
      .error .invalidArgument
    else do
      let identity ← Identity.newFromSlices curves publicKey verifyingKey
      let signed := proofSigned id publicKey verifyingKey signalling
      if curves.verify identity.verifyingKey signed signature then
        return (identity, if data.length ≥ MTU_PROOF_LEN then mtuFromSignallingBytes signalling
          else RETICULUM_MTU)
      else throw .incorrectSignature
  else .error .packetError

end Reticulum
