import ReticulumSdk.Crypt.Identity
import ReticulumSdk.Transport.Handler

/-! Destinations of a node: what they announce, and what others read from it. -/

namespace Reticulum

/-- `NAME_HASH_LENGTH`. -/
def NAME_HASH_LENGTH : Nat := 10

/-- `RAND_HASH_LENGTH`. -/
def RAND_HASH_LENGTH : Nat := 10

/-- `MIN_ANNOUNCE_DATA_LENGTH`: two keys, two hashes and a signature. -/
def MIN_ANNOUNCE_DATA_LENGTH : Nat :=
  PUBLIC_KEY_LENGTH * 2 + NAME_HASH_LENGTH + RAND_HASH_LENGTH + SIGNATURE_LENGTH

/-- `DestinationName`. -/
structure DestinationName where
  hash : Hash
  deriving DecidableEq

namespace DestinationName

/-- `as_name_hash_slice`. -/
def asNameHashSlice (name : DestinationName) : Bytes := name.hash.bytes.take NAME_HASH_LENGTH

/-- `new_from_hash_slice`: zeros stand for what is not announced of a name. -/
def newFromHashSlice (slice : Bytes) : DestinationName where
  hash := ⟨(slice ++ List.replicate HASH_SIZE 0).take HASH_SIZE, by simp⟩

/-- A name hash has its width. -/
theorem asNameHashSlice_length (name : DestinationName) :
    name.asNameHashSlice.length = NAME_HASH_LENGTH := by
  rw [asNameHashSlice, List.length_take, name.hash.length_eq]
  rfl

/-- What is announced of a name is kept of it. -/
theorem asNameHashSlice_newFromHashSlice (name : DestinationName) :
    (newFromHashSlice name.asNameHashSlice).asNameHashSlice = name.asNameHashSlice := by
  have width := name.asNameHashSlice_length
  have short : NAME_HASH_LENGTH ≤ HASH_SIZE := by decide
  rw [asNameHashSlice, newFromHashSlice, List.take_take, Nat.min_eq_left short]
  exact List.take_left' width

end DestinationName

/-- `create_address_hash`. -/
def createAddressHash (identity : Identity) (name : DestinationName) : AddressHash :=
  .newFromHash (.generate (name.asNameHashSlice ++ identity.addressHash.bytes))

/-- The random part of an announce, always of its width. -/
structure RandHash where
  bytes : Bytes
  length_eq : bytes.length = RAND_HASH_LENGTH
  deriving DecidableEq

/-- `build_announce_rand_hash`: five random bytes before the low five of the clock's. -/
def buildAnnounceRandHash (random : Hash) (timestampSecs : UInt64) : RandHash where
  bytes := random.bytes.take (RAND_HASH_LENGTH / 2) ++
    [(timestampSecs >>> 32).toUInt8, (timestampSecs >>> 24).toUInt8, (timestampSecs >>> 16).toUInt8,
      (timestampSecs >>> 8).toUInt8, timestampSecs.toUInt8]
  length_eq := by
    rw [List.length_append, List.length_take, random.length_eq]
    rfl

/--
`Destination<PrivateIdentity, Input, Single>`. It has the keys of its identity, and the address of
its identity and name.
-/
structure LocalDestination (agreement : KeyAgreement) extends SingleInputDestination where
  privateKey : SecretKey
  name : DestinationName
  ratchetPublicKey : Option PublicKey
  provePackets : Bool
  ratchetSecret : Option SecretKey
  paired : desc.identity.publicKey = agreement.publicOf privateKey
  addressed : desc.addressHash = createAddressHash desc.identity name

/-- What may be called on a destination between two announces. -/
inductive DestinationCall where
  | enableRatchet (secret : SecretKey)
  | setAcceptLinkRequests (acceptLinkRequests : Bool)
  | setProvePackets (provePackets : Bool)
  deriving DecidableEq

/-- The call is one of `enable_ratchet`. -/
def DestinationCall.Ratchets : DestinationCall → Bool
  | .enableRatchet _ => true
  | _ => false

/-- `SingleOutputDestination`: a destination as it was announced. -/
structure SingleOutputDestination where
  identity : Identity
  name : DestinationName
  addressHash : AddressHash
  ratchetPublicKey : Option PublicKey
  deriving DecidableEq

/-- `SingleOutputDestination::new`. -/
def SingleOutputDestination.new (identity : Identity) (name : DestinationName) :
    SingleOutputDestination :=
  ⟨identity, name, createAddressHash identity name, none⟩

namespace LocalDestination

variable {agreement : KeyAgreement}

/-- `SingleInputDestination::new` over `PrivateIdentity::new`. -/
def new (agreement : KeyAgreement) (privateKey : SecretKey) (signKey : SigningKey)
    (name : DestinationName) : LocalDestination agreement where
  desc :=
    let identity : Identity := ⟨agreement.publicOf privateKey, signKey.verifyingKey⟩
    ⟨identity, createAddressHash identity name⟩
  acceptLinkRequests := true
  sign := signKey.sign
  privateKey := privateKey
  name := name
  ratchetPublicKey := none
  provePackets := false
  ratchetSecret := none
  paired := rfl
  addressed := rfl

/-- `enable_ratchet`, with the secret the generator gave. -/
def enableRatchet (destination : LocalDestination agreement) (secret : SecretKey) :
    LocalDestination agreement :=
  { destination with
    ratchetPublicKey := some (agreement.publicOf secret)
    ratchetSecret := some secret }

/-- A call changes the destination. -/
def perform (destination : LocalDestination agreement) : DestinationCall → LocalDestination agreement
  | .enableRatchet secret => destination.enableRatchet secret
  | .setAcceptLinkRequests acceptLinkRequests =>
    { destination with acceptLinkRequests := acceptLinkRequests }
  | .setProvePackets provePackets => { destination with provePackets := provePackets }

/-- Calls in their order. -/
def performAll (destination : LocalDestination agreement) (calls : List DestinationCall) :
    LocalDestination agreement :=
  calls.foldl perform destination

/-- What stands before the signature of an announce. -/
def announceFront (destination : LocalDestination agreement) (randHash : RandHash) : Bytes :=
  destination.desc.identity.publicKey.bytes ++ (destination.desc.identity.verifyingKey.bytes ++
    (destination.name.asNameHashSlice ++ (randHash.bytes ++
      (destination.ratchetPublicKey.elim [] (·.bytes)))))

/-- What a destination signs to announce itself. -/
def announceSigned (destination : LocalDestination agreement) (randHash : RandHash)
    (appData : Option Bytes) : Bytes :=
  destination.desc.addressHash.bytes ++ destination.announceFront randHash ++ appData.getD []

/-- `build_announce_packet_data`. -/
def buildAnnouncePacketData (destination : LocalDestination agreement) (randHash : RandHash)
    (appData : Option Bytes) : Bytes :=
  let signature := destination.sign (destination.announceSigned randHash appData)
  destination.announceFront randHash ++ (signature.bytes ++ appData.getD [])

/-- `announce_with_rand_hash`, which never fails. -/
def announceWithRandHash (destination : LocalDestination agreement) (randHash : RandHash)
    (appData : Option Bytes) : Packet where
  header := {
    contextFlag := if destination.ratchetPublicKey.isSome then .set else .unset
    packetType := .announce }
  destination := destination.desc.addressHash
  transport := none
  context := .none
  data := destination.buildAnnouncePacketData randHash appData

/-- `announce`. -/
def announce (destination : LocalDestination agreement) (random : Hash) (timestampSecs : UInt64)
    (appData : Option Bytes) : Packet :=
  destination.announceWithRandHash (buildAnnounceRandHash random timestampSecs) appData

/-- `path_response`. -/
def pathResponse (destination : LocalDestination agreement) (random : Hash) (timestampSecs : UInt64)
    (appData : Option Bytes) : Packet :=
  { destination.announce random timestampSecs appData with context := .pathResponse }

/-- `decrypt`, which has a key of the identity and none of the ratchet's. -/
def decrypt (destination : LocalDestination agreement) (suite : CipherSuite) (data : Bytes)
    (room : Nat) : Except RnsError Bytes :=
  agreement.decryptPacket suite destination.privateKey data
    destination.desc.identity.addressHash.bytes room

end LocalDestination

namespace DestinationAnnounce

/-- The bytes of a field, from its offset on. -/
def field (data : Bytes) (offset width : Nat) : Bytes := (data.drop offset).take width

/-- A field that ends inside the data has its width. -/
theorem field_length {data : Bytes} {offset width : Nat} (inside : offset + width ≤ data.length) :
    (field data offset width).length = width := by
  rw [field, List.length_take, List.length_drop]
  omega

/-- A field is what was written at its offset. -/
theorem field_eq (front : Bytes) {data written back : Bytes} {offset width : Nat}
    (whole : data = front ++ (written ++ back)) (before : front.length = offset)
    (filled : written.length = width) : field data offset width = written := by
  rw [field, whole, List.drop_left' before, List.take_left' filled]

/-- What stands behind the two hashes: a ratchet key where it is flagged, a signature, and the rest. -/
def readTail (contextFlag : ContextFlag) (data : Bytes)
    (long : MIN_ANNOUNCE_DATA_LENGTH ≤ data.length) :
    Except RnsError (Option PublicKey × Signature × Bytes) :=
  let offset := PUBLIC_KEY_LENGTH * 2 + NAME_HASH_LENGTH + RAND_HASH_LENGTH
  if contextFlag = .set then
    if keyed : MIN_ANNOUNCE_DATA_LENGTH + PUBLIC_KEY_LENGTH ≤ data.length then
      .ok (some ⟨field data offset PUBLIC_KEY_LENGTH, field_length (by
          simp only [offset, MIN_ANNOUNCE_DATA_LENGTH] at keyed ⊢
          omega)⟩,
        ⟨field data (offset + PUBLIC_KEY_LENGTH) SIGNATURE_LENGTH, field_length (by
          simp only [offset, MIN_ANNOUNCE_DATA_LENGTH] at keyed ⊢
          omega)⟩,
        data.drop (offset + PUBLIC_KEY_LENGTH + SIGNATURE_LENGTH))
    else .error .outOfMemory
  else .ok (none, ⟨field data offset SIGNATURE_LENGTH, field_length long⟩,
    data.drop (offset + SIGNATURE_LENGTH))

/-- `DestinationAnnounce::validate`. -/
def validate (curves : Curves) (packet : Packet) :
    Except RnsError (SingleOutputDestination × Bytes) :=
  let data := packet.data
  if packet.header.packetType ≠ .announce then throw .packetError
  else if packet.header.destinationType ≠ .single then throw .packetError
  else if long : MIN_ANNOUNCE_DATA_LENGTH ≤ data.length then do
    let publicKey : PublicKey := ⟨field data 0 PUBLIC_KEY_LENGTH, field_length (by
      simp only [MIN_ANNOUNCE_DATA_LENGTH] at long
      omega)⟩
    let verifyingKey : PublicKey := ⟨field data PUBLIC_KEY_LENGTH PUBLIC_KEY_LENGTH, field_length (by
      simp only [MIN_ANNOUNCE_DATA_LENGTH] at long
      omega)⟩
    let identity ← Identity.newFromSlices curves publicKey verifyingKey
    let nameHash := field data (PUBLIC_KEY_LENGTH * 2) NAME_HASH_LENGTH
    let randHash := field data (PUBLIC_KEY_LENGTH * 2 + NAME_HASH_LENGTH) RAND_HASH_LENGTH
    let (ratchet, signature, appData) ← readTail packet.header.contextFlag data long
    if packet.destination ≠ .newFromHash (.generate (nameHash ++ identity.addressHash.bytes)) then
      throw .incorrectHash
    let signed := packet.destination.bytes ++ (publicKey.bytes ++ (verifyingKey.bytes ++
      (nameHash ++ (randHash ++ ratchet.elim [] (·.bytes))))) ++ appData
    if curves.verify identity.verifyingKey signed signature then
      return ({ SingleOutputDestination.new identity (.newFromHashSlice nameHash) with
        ratchetPublicKey := ratchet }, appData)
    else throw .incorrectSignature
  else throw .outOfMemory

/-- The fields of an announce as `validate` reads them. -/
structure Parts where
  publicKey : PublicKey
  verifyingKey : PublicKey
  nameHash : Bytes
  randHash : Bytes
  ratchet : Option PublicKey
  signature : Signature
  appData : Bytes
  deriving DecidableEq

/-- The fields of an announce that is long enough. -/
def parts (packet : Packet) : Except RnsError Parts :=
  let data := packet.data
  if long : MIN_ANNOUNCE_DATA_LENGTH ≤ data.length then do
    -- Where the signature stands depends on whether the header promises a ratchet.
    let (ratchet, signature, appData) ← readTail packet.header.contextFlag data long
    return {
      publicKey := ⟨field data 0 PUBLIC_KEY_LENGTH, field_length (by
        simp only [MIN_ANNOUNCE_DATA_LENGTH] at long
        omega)⟩
      verifyingKey := ⟨field data PUBLIC_KEY_LENGTH PUBLIC_KEY_LENGTH, field_length (by
        simp only [MIN_ANNOUNCE_DATA_LENGTH] at long
        omega)⟩
      nameHash := field data (PUBLIC_KEY_LENGTH * 2) NAME_HASH_LENGTH
      randHash := field data (PUBLIC_KEY_LENGTH * 2 + NAME_HASH_LENGTH) RAND_HASH_LENGTH
      ratchet := ratchet
      signature := signature
      appData := appData }
  else throw .outOfMemory

end DestinationAnnounce

/--
`SingleOutputDestination::data_packet`: the payload is encrypted for the ratchet's key where one was
announced, and for the identity's else.
-/
def SingleOutputDestination.dataPacket (destination : SingleOutputDestination)
    (agreement : KeyAgreement) (suite : CipherSuite) (ephemeral : SecretKey) (iv : Iv) (data : Bytes) :
    Outcome (Except RnsError Packet) :=
  if data.length > ENCRYPTED_PACKET_MDU then .ok (.error .outOfMemory)
  else do
    let room := data.length + RETICULUM_EC_PUBLIC_KEY_SIZE + RETICULUM_TOKEN_OVERHEAD +
      RETICULUM_AES_BLOCK_SIZE
    let publicKey := destination.ratchetPublicKey.getD destination.identity.publicKey
    let cipherText ← agreement.encryptPacketToPublicKey suite ephemeral iv publicKey data
      destination.identity.addressHash.bytes room
    return cipherText.map fun cipherText =>
      { header := { destinationType := .single, packetType := .data }
        destination := destination.addressHash
        transport := none
        context := .none
        data := cipherText }

/-- An agreement whose public keys are its secrets, for concrete runs. -/
def KeyAgreement.plain : KeyAgreement where
  publicOf secret := ⟨secret.bytes, secret.length_eq⟩
  diffieHellman _ _ := []
  hkdf _ _ := []

/-- A destination that announces itself in concrete runs. -/
def LocalDestination.sample : LocalDestination .plain :=
  .new .plain (.filled 5) ⟨.filled 6, Link.sampleSign⟩ ⟨.newEmpty⟩

end Reticulum
