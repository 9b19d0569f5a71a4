import ReticulumSdk.Crypt.Identity
import ReticulumSdk.SerdeLaws

/-! Interface access codes: packets signed with a shared key, and frames masked with a keystream. -/

namespace Reticulum

/-- The most bytes an expansion with SHA-256 gives: 255 blocks. -/
def HKDF_MAX_LENGTH : Nat := 255 * HASH_SIZE

/-- `Hkdf::<Sha256>::new(Some(salt), ikm).expand(&[], ..)`, which fails for outputs that are too long. -/
structure HkdfSha256 where
  expand : (salt ikm : Bytes) → (length : Nat) → Option { out : Bytes // out.length = length }
  fails_iff : ∀ salt ikm length, expand salt ikm length = none ↔ HKDF_MAX_LENGTH < length

/-- `hkdf_stream`: an expansion that fails leaves the output as it was. -/
def HkdfSha256.stream (hkdf : HkdfSha256) (salt ikm : Bytes) (length : Nat) : Bytes :=
  match hkdf.expand salt ikm length with
  | some out => out.val
  | none => List.replicate length 0

/-- `IfacConfig`, whose code is never longer than a signature. -/
structure IfacConfig where
  signKey : SigningKey
  ifacKey : Bytes
  ifacLen : Nat
  ifacLen_le : ifacLen ≤ SIGNATURE_LENGTH

namespace IfacConfig

/-- The access code of signed bytes: the end of their signature. -/
def codeOf (config : IfacConfig) (signed : Bytes) : Bytes :=
  (config.signKey.sign signed).bytes.drop (SIGNATURE_LENGTH - config.ifacLen)

/-- `IfacConfig::attach`. -/
def attach (config : IfacConfig) (packet : Packet) : Except RnsError Packet := do
  let signedData ← packet.signedData
  return { packet with
    header := { packet.header with ifacFlag := .authenticated }
    ifac := some (config.codeOf signedData) }

/-- The access code in a frame, which is never masked. -/
def accessCode (config : IfacConfig) (frame : Bytes) : Bytes := (frame.drop 2).take config.ifacLen

/-- The keystream of a frame. -/
def mask (hkdf : HkdfSha256) (config : IfacConfig) (frame : Bytes) : Bytes :=
  hkdf.stream config.ifacKey (config.accessCode frame) frame.length

/-- `IfacConfig::mask_frame`. -/
def maskFrame (hkdf : HkdfSha256) (config : IfacConfig) (frame : Bytes) : Except RnsError Bytes :=
  if config.ifacLen = 0 ∨ frame.length ≤ 2 + config.ifacLen then .error .packetError
  else
    let mask := config.mask hkdf frame
    .ok (frame.mapIdx fun i byte =>
      -- The flag stays set whatever the keystream is.
      if i = 0 then (byte ^^^ mask.getD i 0) ||| 0x80
      else if i = 1 ∨ i > config.ifacLen + 1 then byte ^^^ mask.getD i 0
      else byte)

/-- The frame with the keystream taken off, but for the access code. -/
def unmask (hkdf : HkdfSha256) (config : IfacConfig) (frame : Bytes) : Bytes :=
  let mask := config.mask hkdf frame
  frame.mapIdx fun i byte =>
    if i ≤ 1 ∨ i > config.ifacLen + 1 then byte ^^^ mask.getD i 0 else byte

/-- The packet in a frame: unmasked, without its access code and the flag for one. -/
def cleanFrame (hkdf : HkdfSha256) (config : IfacConfig) (frame : Bytes) : Bytes :=
  let unmasked := config.unmask hkdf frame
  (unmasked.getD 0 0 &&& 0x7f) :: unmasked.getD 1 0 :: unmasked.drop (2 + config.ifacLen)

/-- `IfacConfig::decode_frame`. -/
def decodeFrame (hkdf : HkdfSha256) (config : IfacConfig) (frame : Bytes) : Except RnsError Bytes :=
  if config.ifacLen = 0 ∨ frame.length ≤ 2 + config.ifacLen then .error .packetError
  else if frame.getD 0 0 &&& 0x80 = 0 then .error .packetError
  else
    let clean := config.cleanFrame hkdf frame
    -- Signing again gives the code there has to be.
    if config.codeOf clean = config.accessCode frame then .ok clean else .error .incorrectSignature

end IfacConfig

/-- `encode_tx`: the bytes written for a packet into a buffer of some size. -/
def encodeTx (hkdf : HkdfSha256) (ifacConfig : Option IfacConfig) (packet : Packet) (room : Nat) :
    Except RnsError Bytes := do
  let out ← packet.serialize (.new room)
  match ifacConfig with
  | some config => config.maskFrame hkdf out.written
  | none => return out.written

/-- `decode_rx`. -/
def decodeRx (hkdf : HkdfSha256) (ifacConfig : Option IfacConfig) (data : Bytes) :
    Except RnsError Packet :=
  match ifacConfig with
  | some config => do
    let clean ← config.decodeFrame hkdf data
    Packet.deserialize (.new clean)
  | none =>
    -- A frame with an access code comes from an interface that is protected.
    if data ≠ [] ∧ data.getD 0 0 &&& 0x80 = 0x80 then .error .packetError
    else Packet.deserialize (.new data)

end Reticulum
