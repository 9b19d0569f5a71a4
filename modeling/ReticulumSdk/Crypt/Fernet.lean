import ReticulumSdk.Cipher

/-! Tokens of a link: an initialisation vector, a padded ciphertext and a tag over both. -/

namespace Reticulum

/-- `HMAC_OUT_SIZE`. -/
def HMAC_OUT_SIZE : Nat := 32

/-- `IV_KEY_SIZE`. -/
def IV_KEY_SIZE : Nat := 16

/-- `FERNET_OVERHEAD_SIZE`. -/
def FERNET_OVERHEAD_SIZE : Nat := IV_KEY_SIZE + HMAC_OUT_SIZE

/-- `PUBLIC_KEY_LENGTH` of Ed25519. -/
def PUBLIC_KEY_LENGTH : Nat := 32

/-- `DERIVED_KEY_LENGTH`: a signing and an encryption key for AES-256. -/
def DERIVED_KEY_LENGTH : Nat := 512 / 8

/-- The length of a text after PKCS7 padding: at least one byte, up to a whole block. -/
def paddedLength (length : Nat) : Nat :=
  length / RETICULUM_AES_BLOCK_SIZE * RETICULUM_AES_BLOCK_SIZE + RETICULUM_AES_BLOCK_SIZE

/-- What the cipher crates offer: padded CBC into a buffer of some length, and a keyed digest. -/
structure CipherSuite where
  /-- `encrypt_padded_b2b_mut::<Pkcs7>`. -/
  encryptPadded : (key iv text : Bytes) → (room : Nat) → Option Bytes
  /-- `decrypt_padded_b2b_mut::<Pkcs7>`. -/
  decryptPadded : (key iv cipherText : Bytes) → (room : Nat) → Option Bytes
  /-- `HmacSha256`. -/
  hmac : (key data : Bytes) → Hash

/-- What is documented of padded CBC. -/
structure CipherSuite.Lawful (suite : CipherSuite) : Prop where
  /-- A ciphertext is as long as the padded text. -/
  padded : ∀ key iv text room cipherText, suite.encryptPadded key iv text room = some cipherText →
    cipherText.length = paddedLength text.length
  /-- Decryption fails into a buffer shorter than the ciphertext. -/
  short : ∀ key iv cipherText room, room < cipherText.length →
    suite.decryptPadded key iv cipherText room = none
  /-- Into any other it inverts encryption. -/
  inverse : ∀ key iv text room cipherText room', suite.encryptPadded key iv text room =
    some cipherText → cipherText.length ≤ room' →
      suite.decryptPadded key iv cipherText room' = some text

/-- A ciphertext is never empty, for the padding is not. -/
theorem CipherSuite.Lawful.filled {suite : CipherSuite} (lawful : suite.Lawful) {room : Nat}
    {key iv text cipherText : Bytes}
    (encrypted : suite.encryptPadded key iv text room = some cipherText) : cipherText ≠ [] := by
  have padded := lawful.padded _ _ _ _ _ encrypted
  exact List.length_pos_iff.mp (padded ▸ Nat.succ_pos _)

/-- An initialisation vector, always of the block's width. -/
structure Iv where
  bytes : Bytes
  length_eq : bytes.length = IV_KEY_SIZE

/-- A vector of zeros, for concrete runs. -/
def Iv.zero : Iv := ⟨List.replicate IV_KEY_SIZE 0, List.length_replicate⟩

/-- `Fernet`. -/
structure Fernet where
  suite : CipherSuite
  signKey : Bytes
  encKey : Bytes

namespace Fernet

/-- `Fernet::new_from_slices` over the two halves of a derived key. -/
def ofDerivedKey (suite : CipherSuite) (derivedKey : Bytes) : Fernet where
  suite := suite
  signKey := derivedKey.take (DERIVED_KEY_LENGTH / 2)
  encKey := derivedKey.drop (DERIVED_KEY_LENGTH / 2)

/-- `Fernet::encrypt` into a buffer of some length, with the vector the generator gave. -/
def encrypt (fernet : Fernet) (iv : Iv) (text : Bytes) (room : Nat) :
    Outcome (Except RnsError Bytes) :=
  if room ≤ FERNET_OVERHEAD_SIZE then .ok (.error .invalidArgument)
  else match fernet.suite.encryptPadded fernet.encKey iv.bytes text (room - IV_KEY_SIZE) with
    | none => .error .unwrapFailed
    | some cipherText =>
      -- The initialization vector goes first and the tag last, and all of it has to fit.
      let front := iv.bytes ++ cipherText
      if front.length + HMAC_OUT_SIZE > room then .error .indexOutOfBounds
      else .ok (.ok (front ++ (fernet.suite.hmac fernet.signKey front).bytes))

/-- `Fernet::verify`. -/
def verify (fernet : Fernet) (token : Bytes) : Except RnsError Bytes :=
  if token.length ≤ FERNET_OVERHEAD_SIZE then .error .invalidArgument
  else
    let expectedTag := token.drop (token.length - HMAC_OUT_SIZE)
    let actualTag := fernet.suite.hmac fernet.signKey (token.take (token.length - HMAC_OUT_SIZE))
    if expectedTag = actualTag.bytes then .ok token else .error .incorrectSignature

/-- `Fernet::decrypt` of a verified token into a buffer of some length. -/
def decrypt (fernet : Fernet) (token : Bytes) (room : Nat) : Except RnsError Bytes :=
  if token.length ≤ FERNET_OVERHEAD_SIZE then .error .invalidArgument
  else
    let iv := token.take IV_KEY_SIZE
    let cipherText := (token.take (token.length - HMAC_OUT_SIZE)).drop IV_KEY_SIZE
    match fernet.suite.decryptPadded fernet.encKey iv cipherText room with
    | none => .error .cryptoError
    | some text => .ok text

/-- The `decrypt` of an identity: verify, then decrypt. -/
def identityDecrypt (fernet : Fernet) (data : Bytes) (room : Nat) : Except RnsError Bytes := do
  if data.length ≤ PUBLIC_KEY_LENGTH then throw .invalidArgument
  let token ← fernet.verify data
  fernet.decrypt token room

/-- The `encrypt` of an identity, as a cipher; a call that panics has no result. -/
def cipher (fernet : Fernet) (iv : Iv) : Cipher := fun text buffer =>
  match fernet.encrypt iv text buffer.length with
  | .ok (.ok token) => .ok (token.length, token ++ buffer.drop token.length)
  | .ok (.error fault) => .error fault
  | .error _ => .error .cryptoError

variable {fernet : Fernet} {iv : Iv} {text cipherText : Bytes}

/-- The token of a ciphertext. -/
def token (fernet : Fernet) (iv : Iv) (cipherText : Bytes) : Bytes :=
  iv.bytes ++ cipherText ++ (fernet.suite.hmac fernet.signKey (iv.bytes ++ cipherText)).bytes

/-- An encryption that succeeds returns the token of a ciphertext. -/
theorem encrypt_ok {room : Nat} {written : Bytes}
    (encrypted : fernet.encrypt iv text room = .ok (.ok written)) :
    ∃ cipherText, fernet.suite.encryptPadded fernet.encKey iv.bytes text (room - IV_KEY_SIZE) =
      some cipherText ∧ written = fernet.token iv cipherText := by
  -- Every other exit is an error or a panic.
  unfold encrypt at encrypted
  split at encrypted
  · cases encrypted
  · split at encrypted
    · cases encrypted
    · rename_i cipherText found
      simp only at encrypted
      split at encrypted
      · cases encrypted
      · obtain rfl := Except.ok.inj (Except.ok.inj encrypted)
        exact ⟨cipherText, found, rfl⟩

/-- What the cipher returns is the token of a ciphertext. -/
theorem cipher_run {written : Bytes} (encrypted : (fernet.cipher iv).run text = .ok written) :
    ∃ room cipherText, fernet.suite.encryptPadded fernet.encKey iv.bytes text room =
      some cipherText ∧ written = fernet.token iv cipherText := by
  -- The cipher encrypts into a buffer as large as the input allows.
  simp only [Cipher.run, cipher, List.length_replicate, bind_eq_ok] at encrypted
  obtain ⟨⟨length, buffer⟩, called, taken⟩ := encrypted
  split at called
  · rename_i token found
    obtain ⟨rfl, rfl⟩ := Prod.mk.inj (Except.ok.inj called)
    obtain ⟨cipherText, padded, rfl⟩ := encrypt_ok found
    obtain rfl := Except.ok.inj taken
    exact ⟨_, cipherText, padded, by simp⟩
  · cases called
  · cases called

/-- A token is taken apart as it was put together. -/
theorem token_parts (fernet : Fernet) (iv : Iv) (cipherText : Bytes) :
    (fernet.token iv cipherText).length = FERNET_OVERHEAD_SIZE + cipherText.length ∧
      (fernet.token iv cipherText).take ((fernet.token iv cipherText).length - HMAC_OUT_SIZE) =
        iv.bytes ++ cipherText ∧
      (fernet.token iv cipherText).drop ((fernet.token iv cipherText).length - HMAC_OUT_SIZE) =
        (fernet.suite.hmac fernet.signKey (iv.bytes ++ cipherText)).bytes ∧
      (fernet.token iv cipherText).take IV_KEY_SIZE = iv.bytes := by
  -- A token is a vector, a text and a tag, of which the first and the last have their widths.
  have vector := iv.length_eq
  have tag := (fernet.suite.hmac fernet.signKey (iv.bytes ++ cipherText)).length_eq
  have width : HASH_SIZE = HMAC_OUT_SIZE := rfl
  have front : (fernet.token iv cipherText).length - HMAC_OUT_SIZE =
      (iv.bytes ++ cipherText).length := by
    simp only [token, List.length_append, tag, width]
    omega
  refine ⟨?_, ?_, ?_, ?_⟩
  · simp only [token, List.length_append, vector, tag, width, FERNET_OVERHEAD_SIZE]
    omega
  · rw [front]
    exact List.take_left
  · rw [front]
    exact List.drop_left
  · rw [token, List.append_assoc]
    exact List.take_left' vector

/-- A token is longer than what stands around its ciphertext. -/
theorem token_long (filled : cipherText ≠ []) :
    ¬ (fernet.token iv cipherText).length ≤ FERNET_OVERHEAD_SIZE := by
  have some := List.length_pos_iff.mpr filled
  rw [(fernet.token_parts iv cipherText).1]
  omega

/-- Another key verifies a token exactly when it gives the front of it the same tag. -/
theorem verify_token (other : Fernet) (filled : cipherText ≠ []) :
    other.verify (fernet.token iv cipherText) =
      if fernet.suite.hmac fernet.signKey (iv.bytes ++ cipherText) =
          other.suite.hmac other.signKey (iv.bytes ++ cipherText) then
        .ok (fernet.token iv cipherText)
      else .error .incorrectSignature := by
  -- Tags are compared as bytes, which is comparing them.
  obtain ⟨-, front, tag, -⟩ := fernet.token_parts iv cipherText
  have tags : ∀ first second : Hash, first.bytes = second.bytes ↔ first = second := by
    rintro ⟨first, _⟩ ⟨second, _⟩
    simp
  simp only [verify, token_long filled, if_false, front, tag, tags]

/-- A verified token is decrypted exactly into a buffer that holds its ciphertext. -/
theorem decrypt_token (lawful : fernet.suite.Lawful) {room : Nat}
    (encrypted : fernet.suite.encryptPadded fernet.encKey iv.bytes text room = some cipherText)
    (room' : Nat) :
    fernet.decrypt (fernet.token iv cipherText) room' =
      if paddedLength text.length ≤ room' then .ok text else .error .cryptoError := by
  -- Behind the vector stands what was padded and encrypted, which opens with room for the padding.
  obtain ⟨-, front, -, vector⟩ := fernet.token_parts iv cipherText
  have padded := lawful.padded _ _ _ _ _ encrypted
  have middle : (iv.bytes ++ cipherText).drop IV_KEY_SIZE = cipherText :=
    List.drop_left' iv.length_eq
  simp only [decrypt, token_long (lawful.filled encrypted), if_false, vector, front, middle]
  by_cases fits : paddedLength text.length ≤ room'
  · simp only [lawful.inverse _ _ _ _ _ room' encrypted (by omega), fits, if_true]
  · simp only [lawful.short _ _ cipherText room' (by omega), fits, if_false]

/-- A token is verified, and decrypted exactly into a buffer that holds its ciphertext. -/
theorem identityDecrypt_token (lawful : fernet.suite.Lawful) {room : Nat}
    (encrypted : fernet.suite.encryptPadded fernet.encKey iv.bytes text room = some cipherText)
    (room' : Nat) :
    fernet.identityDecrypt (fernet.token iv cipherText) room' =
      if paddedLength text.length ≤ room' then .ok text else .error .cryptoError := by
  -- The token verifies under its own key.
  have filled := lawful.filled encrypted
  have keyed : ¬ (fernet.token iv cipherText).length ≤ PUBLIC_KEY_LENGTH := fun short =>
    token_long filled (Nat.le_trans short (by decide))
  have verified : fernet.verify (fernet.token iv cipherText) = .ok (fernet.token iv cipherText) := by
    rw [verify_token fernet filled, if_pos rfl]
  rw [← decrypt_token lawful encrypted room']
  simp only [identityDecrypt, keyed, if_false, verified, Bind.bind, Except.bind]

end Fernet

end Reticulum
