import ReticulumSdk.Link.Establish

/-! Packets for an identity: encrypted under a key agreed with a key pair of their own. -/

namespace Reticulum

/-- `RETICULUM_EC_PUBLIC_KEY_SIZE`. -/
def RETICULUM_EC_PUBLIC_KEY_SIZE : Nat := 32

/-- `ENCRYPTED_PACKET_MDU`: what `encrypted_payload_mdu` leaves behind two addresses and a key. -/
def ENCRYPTED_PACKET_MDU : Nat :=
  let available := RETICULUM_MTU - RETICULUM_MIN_IFAC_SIZE - RETICULUM_MAX_HEADER_SIZE -
    RETICULUM_TOKEN_OVERHEAD - RETICULUM_EC_PUBLIC_KEY_SIZE
  available / RETICULUM_AES_BLOCK_SIZE * RETICULUM_AES_BLOCK_SIZE - 1

/-- The address of an identity: the front of the digest of its keys. -/
def Identity.addressHash (identity : Identity) : AddressHash :=
  .newFromHash (.generate (identity.publicKey.bytes ++ identity.verifyingKey.bytes))

/-- `StaticSecret` and `EphemeralSecret`, which differ only in how long they are kept. -/
structure SecretKey where
  bytes : Bytes
  length_eq : bytes.length = PUBLIC_KEY_LENGTH

/-- Secrets with the same bytes are the same. -/
theorem SecretKey.bytes_inj {first second : SecretKey} : first.bytes = second.bytes ↔ first = second := by
  cases first
  cases second
  simp only [SecretKey.mk.injEq]

instance : DecidableEq SecretKey := fun _ _ => decidable_of_iff _ SecretKey.bytes_inj

/-- A secret of one byte repeated, for concrete runs. -/
def SecretKey.filled (byte : UInt8) : SecretKey :=
  ⟨List.replicate PUBLIC_KEY_LENGTH byte, List.length_replicate⟩

/-- `SigningKey`: its public half, and the signatures it makes. -/
structure SigningKey where
  verifyingKey : PublicKey
  sign : Bytes → Signature

/-- What the agreement crates offer: X25519, and the expansion of a shared secret. -/
structure KeyAgreement where
  /-- `PublicKey::from`. -/
  publicOf : SecretKey → PublicKey
  /-- `diffie_hellman`. -/
  diffieHellman : SecretKey → PublicKey → Bytes
  /-- `Hkdf::<Sha256>::new(salt, shared).expand(&[], ..)` to the width of a derived key. -/
  hkdf : (salt shared : Bytes) → Bytes

/-- What is documented of the agreement: both sides come to the same secret. -/
structure KeyAgreement.Lawful (agreement : KeyAgreement) : Prop where
  symmetric : ∀ mine yours, agreement.diffieHellman mine (agreement.publicOf yours) =
    agreement.diffieHellman yours (agreement.publicOf mine)

/-- What is documented of padded encryption: a buffer that holds the padded text is enough. -/
def CipherSuite.Encrypts (suite : CipherSuite) : Prop :=
  ∀ key iv text room, paddedLength text.length ≤ room →
    (suite.encryptPadded key iv text room).isSome = true

/-- A buffer with room for the vector, the padded text and the tag is always enough. -/
theorem Fernet.encrypt_fits (fernet : Fernet) (lawful : fernet.suite.Lawful)
    (encrypts : fernet.suite.Encrypts) (iv : Iv) (text : Bytes) {room : Nat}
    (fits : FERNET_OVERHEAD_SIZE + paddedLength text.length ≤ room) :
    ∃ cipherText, fernet.suite.encryptPadded fernet.encKey iv.bytes text (room - IV_KEY_SIZE) =
        some cipherText ∧
      fernet.encrypt iv text room = .ok (.ok (fernet.token iv cipherText)) := by
  -- The three parts of the buffer are the vector, the padded text and the tag.
  have sizes : FERNET_OVERHEAD_SIZE = 48 ∧ IV_KEY_SIZE = 16 ∧ HMAC_OUT_SIZE = 32 ∧
      0 < paddedLength text.length :=
    ⟨rfl, rfl, rfl, Nat.succ_pos _⟩
  obtain ⟨cipherText, padded⟩ := Option.isSome_iff_exists.mp
    (encrypts fernet.encKey iv.bytes text (room - IV_KEY_SIZE) (by omega))
  have width := lawful.padded _ _ _ _ _ padded
  have inside : ¬ (iv.bytes ++ cipherText).length + HMAC_OUT_SIZE > room := by
    rw [List.length_append, iv.length_eq, width]
    omega
  refine ⟨cipherText, padded, ?_⟩
  rw [Fernet.encrypt, if_neg (by omega), padded]
  exact if_neg inside

namespace KeyAgreement

variable (agreement : KeyAgreement) (suite : CipherSuite)

/-- `DerivedKey::new`, as the cipher it keys. -/
def deriveFernet (secret : SecretKey) (publicKey : PublicKey) (salt : Bytes) : Fernet :=
  .ofDerivedKey suite (agreement.hkdf salt (agreement.diffieHellman secret publicKey))

/-- `encrypt_packet_to_public_key`, with the key pair and the vector the generator gave. -/
def encryptPacketToPublicKey (ephemeral : SecretKey) (iv : Iv) (publicKey : PublicKey)
    (text salt : Bytes) (room : Nat) : Outcome (Except RnsError Bytes) :=
  if room ≤ PUBLIC_KEY_LENGTH then .ok (.error .outOfMemory)
  else do
    let token ← (agreement.deriveFernet suite ephemeral publicKey salt).encrypt iv text
      (room - PUBLIC_KEY_LENGTH)
    return ((agreement.publicOf ephemeral).bytes ++ ·) <$> token

/-- `PrivateIdentity::decrypt_packet`. -/
def decryptPacket (privateKey : SecretKey) (data salt : Bytes) (room : Nat) : Except RnsError Bytes :=
  if long : PUBLIC_KEY_LENGTH < data.length then do
    let ephemeralPublic : PublicKey :=
      ⟨data.take PUBLIC_KEY_LENGTH, by rw [List.length_take]; omega⟩
    let fernet := agreement.deriveFernet suite privateKey ephemeralPublic salt
    let token ← fernet.verify (data.drop PUBLIC_KEY_LENGTH)
    fernet.decrypt token room
  else throw .invalidArgument

variable {agreement suite}
variable {privateKey : SecretKey} {iv : Iv} {text salt : Bytes}

/-- A buffer with room for the key, the tag and the padding is always enough. -/
theorem encryptPacketToPublicKey_ok (agreement : KeyAgreement) (lawful : suite.Lawful)
    (encrypts : suite.Encrypts) (ephemeral : SecretKey) (iv : Iv) (publicKey : PublicKey)
    (salt : Bytes) {room : Nat}
    (fits : PUBLIC_KEY_LENGTH + FERNET_OVERHEAD_SIZE + paddedLength text.length ≤ room) :
    ∃ cipherText, suite.encryptPadded (agreement.deriveFernet suite ephemeral publicKey salt).encKey
        iv.bytes text (room - PUBLIC_KEY_LENGTH - IV_KEY_SIZE) = some cipherText ∧
      agreement.encryptPacketToPublicKey suite ephemeral iv publicKey text salt room =
        .ok (.ok ((agreement.publicOf ephemeral).bytes ++
          (agreement.deriveFernet suite ephemeral publicKey salt).token iv cipherText)) := by
  -- Behind the key stands a token.
  have sizes : PUBLIC_KEY_LENGTH = 32 ∧ FERNET_OVERHEAD_SIZE = 48 := ⟨rfl, rfl⟩
  have behind : FERNET_OVERHEAD_SIZE + paddedLength text.length ≤ room - PUBLIC_KEY_LENGTH := by omega
  obtain ⟨cipherText, padded, token⟩ :=
    (agreement.deriveFernet suite ephemeral publicKey salt).encrypt_fits lawful encrypts iv text behind
  refine ⟨cipherText, padded, ?_⟩
  rw [encryptPacketToPublicKey, if_neg (by omega), token]
  rfl

/-- A packet is decrypted with a key only if the key gives its token the tag it was sent with. -/
theorem decryptPacket_token (fernet : Fernet) {cipherText : Bytes} (filled : cipherText ≠ [])
    (key : PublicKey) (room : Nat) :
    agreement.decryptPacket suite privateKey (key.bytes ++ fernet.token iv cipherText) salt room =
      let own := agreement.deriveFernet suite privateKey key salt
      if fernet.suite.hmac fernet.signKey (iv.bytes ++ cipherText) =
          own.suite.hmac own.signKey (iv.bytes ++ cipherText) then
        own.decrypt (fernet.token iv cipherText) room
      else .error .incorrectSignature := by
  -- The first 32 bytes are the ephemeral key, and what follows is the token as it was sealed.
  have long : PUBLIC_KEY_LENGTH < (key.bytes ++ fernet.token iv cipherText).length := by
    have some : ¬ (fernet.token iv cipherText).length ≤ FERNET_OVERHEAD_SIZE :=
      Fernet.token_long filled
    rw [List.length_append, key.length_eq]
    omega
  have front : (key.bytes ++ fernet.token iv cipherText).take PUBLIC_KEY_LENGTH = key.bytes :=
    List.take_left' key.length_eq
  have back : (key.bytes ++ fernet.token iv cipherText).drop PUBLIC_KEY_LENGTH =
      fernet.token iv cipherText :=
    List.drop_left' key.length_eq
  simp only [decryptPacket, dif_pos long, front, back, Fernet.verify_token _ filled]
  split <;> rfl

end KeyAgreement

end Reticulum
