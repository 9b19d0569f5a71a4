import ReticulumSdk.Crypt.Identity
import ReticulumSdk.Link.Payload

/-! Encryption into buffers of any length: which are refused, which hold a token and which stop the thread. -/

namespace Reticulum

/-- What is documented of padded encryption: a buffer that does not hold the padded text is refused. -/
def CipherSuite.Refuses (suite : CipherSuite) : Prop :=
  ∀ key iv text room, room < paddedLength text.length → suite.encryptPadded key iv text room = none

namespace Fernet

/--
An encryption that reports short buffers: an error where the token has no room, and otherwise a token
that verifies and is decrypted to the text wherever its ciphertext has room.
-/
structure Reports (fernet : Fernet) (iv : Iv) (text : Bytes) (room : Nat) : Prop where
  short : room < FERNET_OVERHEAD_SIZE + paddedLength text.length →
    ∃ fault, fernet.encrypt iv text room = .ok (.error fault)
  long : FERNET_OVERHEAD_SIZE + paddedLength text.length ≤ room →
    ∃ token, fernet.encrypt iv text room = .ok (.ok token) ∧ fernet.verify token = .ok token ∧
      ∀ room', paddedLength text.length ≤ room' → fernet.decrypt token room' = .ok text
  total : ∀ panic, fernet.encrypt iv text room ≠ .error panic

variable {fernet : Fernet} {iv : Iv} {text : Bytes} {room : Nat}

/-- A buffer that holds a vector, a tag and more, but not the padded text between them, stops the thread. -/
theorem encrypt_panics (lawful : fernet.suite.Lawful) (refuses : fernet.suite.Refuses)
    (passed : FERNET_OVERHEAD_SIZE < room) (short : room < FERNET_OVERHEAD_SIZE + paddedLength text.length) :
    ∃ panic, fernet.encrypt iv text room = .error panic := by
  have sizes : FERNET_OVERHEAD_SIZE = 48 ∧ IV_KEY_SIZE = 16 ∧ HMAC_OUT_SIZE = 32 := ⟨rfl, rfl, rfl⟩
  rw [encrypt, if_neg (by omega)]
  by_cases padded : room - IV_KEY_SIZE < paddedLength text.length
  · -- The padded text does not fit behind the vector.
    rw [refuses _ _ _ _ padded]
    exact ⟨_, rfl⟩
  · cases found : fernet.suite.encryptPadded fernet.encKey iv.bytes text (room - IV_KEY_SIZE) with
    | none => exact ⟨_, rfl⟩
    | some cipherText =>
      -- It does, and the tag does not fit behind it.
      have beyond : (iv.bytes ++ cipherText).length + HMAC_OUT_SIZE > room := by
        rw [List.length_append, iv.length_eq, lawful.padded _ _ _ _ _ found]
        omega
      exact ⟨_, if_pos beyond⟩

/-- A buffer that holds a token gets one that verifies and is decrypted. -/
theorem encrypt_round_trip (lawful : fernet.suite.Lawful) (encrypts : fernet.suite.Encrypts)
    (fits : FERNET_OVERHEAD_SIZE + paddedLength text.length ≤ room) :
    ∃ token, fernet.encrypt iv text room = .ok (.ok token) ∧ fernet.verify token = .ok token ∧
      ∀ room', paddedLength text.length ≤ room' → fernet.decrypt token room' = .ok text := by
  -- The token is the one the suite builds in enough room, and its parts read back one by one.
  obtain ⟨cipherText, padded, encrypted⟩ := fernet.encrypt_fits lawful encrypts iv text fits
  refine ⟨_, encrypted, ?_, fun room' wide => ?_⟩
  · rw [verify_token fernet (lawful.filled padded), if_pos rfl]
  · rw [decrypt_token lawful padded, if_pos wide]

/-- A buffer of at most a vector and a tag is refused. -/
theorem encrypt_refused (small : room ≤ FERNET_OVERHEAD_SIZE) :
    fernet.encrypt iv text room = .ok (.error .invalidArgument) := by
  rw [encrypt, if_pos small]

end Fernet

/--
Encryption reports a short buffer as an error, and gives a token that is decrypted into any other, exactly
for buffers of at most 48 bytes and those that hold a vector, the padded text and a tag; between them it
panics.
-/
theorem encrypt_reports_iff (fernet : Fernet) (iv : Iv) (text : Bytes) (room : Nat)
    (lawful : fernet.suite.Lawful) (encrypts : fernet.suite.Encrypts) (refuses : fernet.suite.Refuses) :
    fernet.Reports iv text room ↔ room ≤ 48 ∨ 48 + (text.length / 16 * 16 + 16) ≤ room := by
  -- Three ranges of room: too small to begin, too small for the padded text, and large enough.
  have overhead : FERNET_OVERHEAD_SIZE = 48 := rfl
  have padding : paddedLength text.length = text.length / 16 * 16 + 16 := rfl
  rw [← padding, ← overhead]
  constructor
  · intro reports
    -- Between the bounds the thread stops, which is no report.
    by_contra between
    rw [not_or, Nat.not_le, Nat.not_le] at between
    obtain ⟨panic, stopped⟩ := @Fernet.encrypt_panics fernet iv text room lawful refuses between.1 between.2
    exact reports.total panic stopped
  · rintro (small | fits)
    · -- The first check refuses the smallest buffers.
      have refused := @Fernet.encrypt_refused fernet iv text room small
      refine ⟨fun _ => ⟨_, refused⟩, fun fits => by omega, fun _ stopped => ?_⟩
      rw [refused] at stopped
      cases stopped
    · -- The largest hold a token.
      have round := @Fernet.encrypt_round_trip fernet iv text room lawful encrypts fits
      refine ⟨fun short => by omega, fun _ => round, fun _ stopped => ?_⟩
      obtain ⟨token, encrypted, -⟩ := round
      rw [encrypted] at stopped
      cases stopped

/-- Padding with no encryption fails only into a buffer too small. -/
theorem CipherSuite.plain_encrypts : CipherSuite.plain.Encrypts := by
  intro key iv text room fits
  simp [CipherSuite.plain, Nat.not_lt.mpr fits]

/-- It fails into every such buffer. -/
theorem CipherSuite.plain_refuses : CipherSuite.plain.Refuses := by
  intro key iv text room short
  simp [CipherSuite.plain, short]

/-- Keys and a vector of zeros for concrete runs. -/
private def blankFernet : Fernet := .ofDerivedKey .plain (List.replicate DERIVED_KEY_LENGTH 0)

/-- A vector of zeros for concrete runs. -/
private def blankVector : Iv := .zero

/-- A text of three bytes is encrypted into a buffer of 64 bytes, and refused for one of 48. -/
theorem encrypt_reports_iff_fits :
    blankFernet.Reports blankVector [1, 2, 3] 64 ∧ blankFernet.Reports blankVector [1, 2, 3] 48 :=
  -- Three bytes pad to sixteen, so sixty-four bytes hold the token and forty-eight are refused.
  ⟨(encrypt_reports_iff blankFernet blankVector _ _ CipherSuite.plain_lawful CipherSuite.plain_encrypts
      CipherSuite.plain_refuses).mpr (.inr (by decide)),
    (encrypt_reports_iff blankFernet blankVector _ _ CipherSuite.plain_lawful CipherSuite.plain_encrypts
      CipherSuite.plain_refuses).mpr (.inl (by decide))⟩

/-- A buffer of 60 bytes for a text of three bytes stops the thread. -/
theorem short_buffer_panics : ¬ ∀ (fernet : Fernet) (iv : Iv) (text : Bytes) (room : Nat),
    fernet.suite.Lawful → fernet.suite.Encrypts → fernet.suite.Refuses → fernet.Reports iv text room := by
  intro reports
  have total := (reports blankFernet blankVector [1, 2, 3] 60 CipherSuite.plain_lawful
    CipherSuite.plain_encrypts CipherSuite.plain_refuses).total
  -- The padded text fits behind the vector, and the tag does not fit behind the padded text.
  have stopped : blankFernet.encrypt blankVector [1, 2, 3] 60 = .error .indexOutOfBounds := by
    rfl
  exact total _ stopped

end Reticulum
