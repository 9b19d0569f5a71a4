import ReticulumSdk.Crypt.ShortBuffers
import ReticulumSdk.Destination.Announce

/-! What is encrypted for an announced destination, and whether the destination can read it. -/

namespace Reticulum

namespace LocalDestination

variable {agreement : KeyAgreement} {destination : LocalDestination agreement}

/-- What others know of a destination that announced itself. -/
def announced (destination : LocalDestination agreement) : SingleOutputDestination where
  identity := destination.desc.identity
  name := .newFromHashSlice destination.name.asNameHashSlice
  addressHash := destination.desc.addressHash
  ratchetPublicKey := destination.ratchetPublicKey

/-- The packets by which a destination announces itself. -/
inductive Announces (destination : LocalDestination agreement) : Packet → Prop where
  | announce (random : Hash) (timestampSecs : UInt64) (appData : Option Bytes) :
      Announces destination (destination.announce random timestampSecs appData)
  | pathResponse (random : Hash) (timestampSecs : UInt64) (appData : Option Bytes) :
      Announces destination (destination.pathResponse random timestampSecs appData)

open DestinationAnnounce in
/-- The tail of an announce is read as it was written. -/
private theorem readTail_announce (front : Bytes) (ratchet : Option PublicKey) (signature : Signature)
    (appData : Bytes) {data : Bytes} (long : MIN_ANNOUNCE_DATA_LENGTH ≤ data.length)
    (before : front.length = PUBLIC_KEY_LENGTH * 2 + NAME_HASH_LENGTH + RAND_HASH_LENGTH)
    (whole : data = front ++ (ratchet.elim [] (·.bytes) ++ (signature.bytes ++ appData))) :
    readTail (if ratchet.isSome then .set else .unset) data long =
      .ok (ratchet, signature, appData) := by
  -- The flag says whether a ratchet stands between the random hash and the signature.
  have signed := signature.length_eq
  cases ratchet with
  | none =>
    have plain : data = front ++ (signature.bytes ++ appData) := whole
    have first : field data (PUBLIC_KEY_LENGTH * 2 + NAME_HASH_LENGTH + RAND_HASH_LENGTH)
        SIGNATURE_LENGTH = signature.bytes := field_eq front plain before signed
    have rest : data.drop (PUBLIC_KEY_LENGTH * 2 + NAME_HASH_LENGTH + RAND_HASH_LENGTH +
        SIGNATURE_LENGTH) = appData := by
      rw [plain, ← List.append_assoc]
      exact List.drop_left' (by rw [List.length_append, before, signed])
    simp only [readTail, Option.isSome_none, if_false, reduceCtorEq, first, rest, Bool.false_eq_true]
  -- With a ratchet everything behind it stands further on.
  | some key =>
    have keyed : data = front ++ (key.bytes ++ (signature.bytes ++ appData)) := whole
    have width := key.length_eq
    have further : data = (front ++ key.bytes) ++ (signature.bytes ++ appData) := by
      rw [keyed, List.append_assoc]
    have behind : (front ++ key.bytes).length =
        PUBLIC_KEY_LENGTH * 2 + NAME_HASH_LENGTH + RAND_HASH_LENGTH + PUBLIC_KEY_LENGTH := by
      rw [List.length_append, before, width]
    have first : field data (PUBLIC_KEY_LENGTH * 2 + NAME_HASH_LENGTH + RAND_HASH_LENGTH)
        PUBLIC_KEY_LENGTH = key.bytes := field_eq front keyed before width
    have second : field data (PUBLIC_KEY_LENGTH * 2 + NAME_HASH_LENGTH + RAND_HASH_LENGTH +
        PUBLIC_KEY_LENGTH) SIGNATURE_LENGTH = signature.bytes :=
      field_eq (front ++ key.bytes) further behind signed
    have rest : data.drop (PUBLIC_KEY_LENGTH * 2 + NAME_HASH_LENGTH + RAND_HASH_LENGTH +
        PUBLIC_KEY_LENGTH + SIGNATURE_LENGTH) = appData := by
      rw [further, ← List.append_assoc]
      exact List.drop_left' (by rw [List.length_append, behind, signed])
    -- The length of the ratchet is checked for separately.
    have enough : MIN_ANNOUNCE_DATA_LENGTH + PUBLIC_KEY_LENGTH ≤ data.length := by
      rw [further]
      simp only [List.length_append, before, width, signed, MIN_ANNOUNCE_DATA_LENGTH]
      omega
    simp only [readTail, Option.isSome_some, if_true, dif_pos enough, first, second, rest]

open DestinationAnnounce in
/-- An announce is valid exactly when its key and its signature are. -/
theorem validate_announce (curves : Curves) (randHash : RandHash) (appData : Option Bytes)
    (context : PacketContext) :
    validate curves { destination.announceWithRandHash randHash appData with context := context } =
      if curves.validKey destination.desc.identity.verifyingKey then
        if curves.verify destination.desc.identity.verifyingKey
            (destination.announceSigned randHash appData)
            (destination.sign (destination.announceSigned randHash appData)) then
          .ok (destination.announced, appData.getD [])
        else .error .incorrectSignature
      else .error .cryptoError := by
  -- Each field is read back at the offset it was written at.
  have publicWidth := destination.desc.identity.publicKey.length_eq
  have verifyingWidth := destination.desc.identity.verifyingKey.length_eq
  have nameWidth := destination.name.asNameHashSlice_length
  have randWidth := randHash.length_eq
  generalize signatureEq : destination.sign (destination.announceSigned randHash appData) = signature
  have signatureWidth := signature.length_eq
  generalize dataEq : destination.buildAnnouncePacketData randHash appData = data
  have whole : data = destination.desc.identity.publicKey.bytes ++
      (destination.desc.identity.verifyingKey.bytes ++ (destination.name.asNameHashSlice ++
        (randHash.bytes ++ (destination.ratchetPublicKey.elim [] (·.bytes) ++
          (signature.bytes ++ appData.getD []))))) := by
    simp only [← dataEq, buildAnnouncePacketData, signatureEq, announceFront, List.append_assoc]
  have long : MIN_ANNOUNCE_DATA_LENGTH ≤ data.length := by
    rw [whole]
    simp only [List.length_append, publicWidth, verifyingWidth, nameWidth, randWidth, signatureWidth,
      MIN_ANNOUNCE_DATA_LENGTH]
    omega
  -- The fields in front of the tail have fixed widths.
  have publicKey : field data 0 PUBLIC_KEY_LENGTH = destination.desc.identity.publicKey.bytes :=
    field_eq [] whole rfl publicWidth
  have verifyingKey : field data PUBLIC_KEY_LENGTH PUBLIC_KEY_LENGTH =
      destination.desc.identity.verifyingKey.bytes := field_eq _ whole publicWidth verifyingWidth
  have nameHash : field data (PUBLIC_KEY_LENGTH * 2) NAME_HASH_LENGTH =
      destination.name.asNameHashSlice :=
    field_eq (destination.desc.identity.publicKey.bytes ++
        destination.desc.identity.verifyingKey.bytes) (by rw [whole, List.append_assoc])
      (by rw [List.length_append, publicWidth, verifyingWidth]; rfl) nameWidth
  have random : field data (PUBLIC_KEY_LENGTH * 2 + NAME_HASH_LENGTH) RAND_HASH_LENGTH =
      randHash.bytes :=
    field_eq (destination.desc.identity.publicKey.bytes ++
        (destination.desc.identity.verifyingKey.bytes ++ destination.name.asNameHashSlice))
      (by rw [whole, List.append_assoc, List.append_assoc])
      (by simp only [List.length_append, publicWidth, verifyingWidth, nameWidth]; rfl) randWidth
  -- What is behind them depends on the ratchet.
  have tail := readTail_announce (destination.desc.identity.publicKey.bytes ++
      (destination.desc.identity.verifyingKey.bytes ++ (destination.name.asNameHashSlice ++
        randHash.bytes))) destination.ratchetPublicKey signature (appData.getD []) long
    (by simp only [List.length_append, publicWidth, verifyingWidth, nameWidth, randWidth]; rfl)
    (by simp only [whole, List.append_assoc])
  unfold validate
  simp only [announceWithRandHash, dataEq, ne_eq, not_true_eq_false, if_false, dif_pos long,
    publicKey, verifyingKey, nameHash, random, tail, Identity.newFromSlices]
  -- The address is computed again from the name and the identity.
  have addressed : destination.desc.addressHash = .newFromHash (.generate
      (destination.name.asNameHashSlice ++ destination.desc.identity.addressHash.bytes)) :=
    destination.addressed
  have readdressed : createAddressHash destination.desc.identity
      (.newFromHashSlice destination.name.asNameHashSlice) = destination.desc.addressHash := by
    rw [createAddressHash, DestinationName.asNameHashSlice_newFromHashSlice, destination.addressed]
    rfl
  -- Only the key and the signature can still be refused.
  by_cases valid : curves.validKey destination.desc.identity.verifyingKey = true
  · simp only [valid, if_true, Bind.bind, Except.bind, ← addressed, not_true_eq_false, if_false,
      SingleOutputDestination.new, readdressed]
    have signed : destination.announceSigned randHash appData = destination.desc.addressHash.bytes ++
        (destination.desc.identity.publicKey.bytes ++ (destination.desc.identity.verifyingKey.bytes ++
          (destination.name.asNameHashSlice ++ (randHash.bytes ++
            destination.ratchetPublicKey.elim [] (·.bytes))))) ++ appData.getD [] := rfl
    rw [signed]
    rfl
  · simp only [valid, if_false, Bind.bind, Except.bind, Bool.false_eq_true]

/-- No call changes what a destination is, or how it signs. -/
theorem performAll_keeps (destination : LocalDestination agreement) (calls : List DestinationCall) :
    (destination.performAll calls).desc = destination.desc ∧
      (destination.performAll calls).sign = destination.sign := by
  -- No call touches the description or the signing key.
  induction calls generalizing destination with
  | nil => exact ⟨rfl, rfl⟩
  | cons call rest ih =>
    have first : (destination.perform call).desc = destination.desc ∧
        (destination.perform call).sign = destination.sign := by
      cases call <;> exact ⟨rfl, rfl⟩
    obtain ⟨desc, sign⟩ := ih (destination.perform call)
    exact ⟨desc.trans first.1, sign.trans first.2⟩

/-- A destination has no ratchet key exactly when none was ever enabled. -/
theorem performAll_ratchetPublicKey (destination : LocalDestination agreement)
    (calls : List DestinationCall) :
    (destination.performAll calls).ratchetPublicKey = none ↔
      destination.ratchetPublicKey = none ∧ ∀ call ∈ calls, call.Ratchets = false := by
  -- The key is absent exactly when it was at the start and no call enabled a ratchet.
  induction calls generalizing destination with
  | nil => simp [performAll]
  | cons call rest ih =>
    have after : destination.performAll (call :: rest) = (destination.perform call).performAll rest :=
      rfl
    rw [after, ih, List.forall_mem_cons, ← and_assoc]
    refine and_congr_left fun _ => ?_
    cases call <;> simp [perform, enableRatchet, DestinationCall.Ratchets]

/-- What an announce is validated to is what it announced. -/
theorem Announces.validated {curves : Curves} {packet : Packet} {output : SingleOutputDestination}
    {rest : Bytes} (announces : destination.Announces packet)
    (valid : DestinationAnnounce.validate curves packet = .ok (output, rest)) :
    output = destination.announced := by
  -- Both kinds of announce are made by the same function, and differ in their context only.
  have read : ∀ randHash appData context, DestinationAnnounce.validate curves
      { destination.announceWithRandHash randHash appData with context := context } =
        .ok (output, rest) → output = destination.announced := by
    intro randHash appData context accepted
    rw [validate_announce] at accepted
    split at accepted
    · split at accepted
      · exact (Prod.mk.inj (Except.ok.inj accepted)).1.symm
      · cases accepted
    · cases accepted
  cases announces with
  | announce random timestampSecs appData => exact read _ _ .none valid
  | pathResponse random timestampSecs appData => exact read _ _ .pathResponse valid

end LocalDestination

/-- The part of a packet's token that its tag is over. -/
def Packet.tokenFront (packet : Packet) : Bytes :=
  (packet.data.drop PUBLIC_KEY_LENGTH).take (packet.data.length - PUBLIC_KEY_LENGTH - HMAC_OUT_SIZE)

/-- The tag that a key gives a packet's token. -/
def Fernet.tagOf (fernet : Fernet) (packet : Packet) : Hash :=
  fernet.suite.hmac fernet.signKey packet.tokenFront

namespace SingleOutputDestination

variable {agreement : KeyAgreement} {suite : CipherSuite}

/-- The key an announced destination is sent packets under. -/
def sendingKey (destination : SingleOutputDestination) : PublicKey :=
  destination.ratchetPublicKey.getD destination.identity.publicKey

/-- Every payload that is not too long is encrypted, into a packet larger than its padded text. -/
theorem dataPacket_ok (agreement : KeyAgreement) (destination : SingleOutputDestination)
    (lawful : suite.Lawful) (encrypts : suite.Encrypts) {payload : Bytes}
    (small : payload.length ≤ ENCRYPTED_PACKET_MDU) (ephemeral : SecretKey) (iv : Iv) :
    let fernet := agreement.deriveFernet suite ephemeral destination.sendingKey
      destination.identity.addressHash.bytes
    ∃ cipherText room packet,
      suite.encryptPadded fernet.encKey iv.bytes payload room = some cipherText ∧
      destination.dataPacket agreement suite ephemeral iv payload = .ok (.ok packet) ∧
      packet.data = (agreement.publicOf ephemeral).bytes ++ fernet.token iv cipherText ∧
      packet.tokenFront = iv.bytes ++ cipherText ∧
      paddedLength payload.length ≤ packet.data.length ∧ paddedLength payload.length ≤ PACKET_MDU := by
  -- The buffer of the packet is large enough for the key, the token and the padding.
  intro fernet
  have sizes : PUBLIC_KEY_LENGTH = 32 ∧ RETICULUM_EC_PUBLIC_KEY_SIZE = 32 ∧
      FERNET_OVERHEAD_SIZE = 48 ∧ RETICULUM_TOKEN_OVERHEAD = 48 ∧ RETICULUM_AES_BLOCK_SIZE = 16 ∧
      ENCRYPTED_PACKET_MDU = 383 ∧ PACKET_MDU = 464 := by decide
  have padded : paddedLength payload.length ≤ payload.length + RETICULUM_AES_BLOCK_SIZE :=
    Nat.add_le_add_right (Nat.div_mul_le_self _ _) _
  -- The padding never takes more than a block.
  obtain ⟨cipherText, found, encrypted⟩ := agreement.encryptPacketToPublicKey_ok lawful encrypts
    ephemeral iv destination.sendingKey destination.identity.addressHash.bytes
    (show PUBLIC_KEY_LENGTH + FERNET_OVERHEAD_SIZE + paddedLength payload.length ≤
      payload.length + RETICULUM_EC_PUBLIC_KEY_SIZE + RETICULUM_TOKEN_OVERHEAD +
        RETICULUM_AES_BLOCK_SIZE by omega)
  have width := lawful.padded _ _ _ _ _ found
  have keyWidth := (agreement.publicOf ephemeral).length_eq
  obtain ⟨tokenWidth, front, -, -⟩ := fernet.token_parts iv cipherText
  refine ⟨cipherText, _, ⟨⟨.opened, .type1, .unset, .broadcast, .single, .data, 0⟩, none,
    destination.addressHash, none, .none, _⟩, found, ?_, rfl, ?_, ?_, by omega⟩
  · unfold dataPacket
    rw [if_neg (by omega)]
    have sent : destination.ratchetPublicKey.getD destination.identity.publicKey =
        destination.sendingKey := rfl
    simp only [sent, encrypted, Bind.bind, Except.bind]
    rfl
  · -- Behind the key of the sender the token begins.
    have body : ((agreement.publicOf ephemeral).bytes ++ fernet.token iv cipherText).drop
        PUBLIC_KEY_LENGTH = fernet.token iv cipherText := List.drop_left' keyWidth
    rw [Packet.tokenFront, body, List.length_append, keyWidth, Nat.add_sub_cancel_left]
    exact front
  · rw [List.length_append, tokenWidth, width]
    omega

end SingleOutputDestination

namespace LocalDestination

variable {agreement : KeyAgreement} {suite : CipherSuite} {destination : LocalDestination agreement}

/-- A destination decrypts by the key that both ends of an agreement with its identity derive. -/
theorem decrypt_token (agrees : agreement.Lawful) (fernet : Fernet) (ephemeral : SecretKey)
    {iv : Iv} {cipherText : Bytes} (filled : cipherText ≠ []) (room : Nat) :
    destination.decrypt suite ((agreement.publicOf ephemeral).bytes ++ fernet.token iv cipherText)
        room =
      let own := agreement.deriveFernet suite ephemeral destination.desc.identity.publicKey
        destination.desc.identity.addressHash.bytes
      if fernet.suite.hmac fernet.signKey (iv.bytes ++ cipherText) =
          own.suite.hmac own.signKey (iv.bytes ++ cipherText) then
        own.decrypt (fernet.token iv cipherText) room
      else .error .incorrectSignature := by
  -- Both sides derive the same secret, as the agreement is symmetric.
  have same : agreement.deriveFernet suite destination.privateKey (agreement.publicOf ephemeral)
      destination.desc.identity.addressHash.bytes =
        agreement.deriveFernet suite ephemeral destination.desc.identity.publicKey
          destination.desc.identity.addressHash.bytes := by
    rw [KeyAgreement.deriveFernet, KeyAgreement.deriveFernet, destination.paired, agrees.symmetric]
  rw [decrypt, KeyAgreement.decryptPacket_token _ filled, same]

end LocalDestination

/--
Under the key of a ratchet, the token of a packet has another tag than under the identity's, as it
has unless two keys collide.
-/
def SingleOutputDestination.TagsApart (destination : SingleOutputDestination)
    (agreement : KeyAgreement) (suite : CipherSuite) (ephemeral : SecretKey) (packet : Packet) : Prop :=
  let salt := destination.identity.addressHash.bytes
  ∀ ratchet, destination.ratchetPublicKey = some ratchet →
    (agreement.deriveFernet suite ephemeral ratchet salt).tagOf packet ≠
      (agreement.deriveFernet suite ephemeral destination.identity.publicKey salt).tagOf packet

open LocalDestination in
/--
What is sent to a destination as it last announced itself is encrypted for every payload that is not
too long, and the destination reads the payload from it exactly when it had enabled no ratchet
before that announce.
-/
theorem announced_data_readable_iff_unratcheted {agreement : KeyAgreement} {suite : CipherSuite}
    {curves : Curves} (agrees : agreement.Lawful) (lawful : suite.Lawful) (encrypts : suite.Encrypts)
    {privateKey : SecretKey} {signKey : SigningKey} {name : DestinationName}
    {earlier : List DestinationCall} (later : List DestinationCall) {announce : Packet}
    {output : SingleOutputDestination} {appData : Bytes}
    (announces : ((new agreement privateKey signKey name).performAll earlier).Announces announce)
    (validated : DestinationAnnounce.validate curves announce = .ok (output, appData))
    {payload : Bytes} (small : payload.length ≤ ENCRYPTED_PACKET_MDU) (ephemeral : SecretKey)
    (iv : Iv) :
    ∃ packet, output.dataPacket agreement suite ephemeral iv payload = .ok (.ok packet) ∧
      (output.TagsApart agreement suite ephemeral packet →
        ∀ room, packet.data.length ≤ room ∨ PACKET_MDU ≤ room →
          (((new agreement privateKey signKey name).performAll (earlier ++ later)).decrypt suite
              packet.data room = .ok payload ↔
            ∀ call ∈ earlier, call.Ratchets = false)) := by
  -- What was announced is what the destination is after the earlier calls.
  obtain rfl := announces.validated validated
  obtain ⟨cipherText, first, packet, encrypted, sent, data, front, long, unit⟩ :=
    SingleOutputDestination.dataPacket_ok agreement
      ((new agreement privateKey signKey name).performAll earlier).announced lawful encrypts small
      ephemeral iv
  refine ⟨packet, sent, fun apart room enough => ?_⟩
  have filled := lawful.filled encrypted
  -- No later call changes the key the destination reads with.
  have afterwards : (new agreement privateKey signKey name).performAll (earlier ++ later) =
      ((new agreement privateKey signKey name).performAll earlier).performAll later :=
    List.foldl_append
  have unratcheted := (new agreement privateKey signKey name).performAll_ratchetPublicKey earlier
  generalize (new agreement privateKey signKey name).performAll earlier = destination at *
  obtain ⟨keys, -⟩ := destination.performAll_keeps later
  rw [afterwards, data, decrypt_token agrees _ ephemeral filled, keys]
  cases enabled : destination.ratchetPublicKey with
  | none =>
    -- The sender uses the identity's key, as the destination does.
    have own : destination.announced.sendingKey = destination.desc.identity.publicKey := by
      rw [SingleOutputDestination.sendingKey, announced, enabled]
      rfl
    have suited : (agreement.deriveFernet suite ephemeral destination.desc.identity.publicKey
        destination.desc.identity.addressHash.bytes).suite.Lawful := lawful
    have fits : paddedLength payload.length ≤ room := by omega
    rw [own] at encrypted ⊢
    refine iff_of_true ?_ (unratcheted.mp enabled).2
    exact (if_pos rfl).trans ((Fernet.decrypt_token suited encrypted room).trans (if_pos fits))
  | some ratchet =>
    -- The sender uses the ratchet's key, which the destination never does.
    have other : destination.announced.sendingKey = ratchet := by
      rw [SingleOutputDestination.sendingKey, announced, enabled]
      rfl
    have tags := apart ratchet enabled
    rw [Fernet.tagOf, Fernet.tagOf, front] at tags
    rw [other]
    refine iff_of_false (fun read => ?_) fun none => ?_
    · have rejected := (if_neg tags).symm.trans read
      cases rejected
    · rw [unratcheted.mpr ⟨rfl, none⟩] at enabled
      cases enabled

/-- An agreement that adds the keys up, for concrete runs. -/
private def sums : KeyAgreement where
  publicOf secret := ⟨secret.bytes, secret.length_eq⟩
  diffieHellman mine yours := List.zipWith (· + ·) mine.bytes yours.bytes
  hkdf _ shared := shared ++ shared

/-- It comes to one secret. -/
private theorem sums_lawful : sums.Lawful where
  symmetric _ _ := List.zipWith_comm_of_comm UInt8.add_comm

/-- A destination for concrete runs, whose secret is all fives. -/
private def listener : LocalDestination sums :=
  .new sums (.filled 5) ⟨.filled 6, Link.sampleSign⟩ ⟨.newEmpty⟩

/-- Its announces are valid. -/
private theorem listener_valid (calls : List DestinationCall) :
    DestinationAnnounce.validate .sample ((listener.performAll calls).announce .newEmpty 7 none) =
      .ok ((listener.performAll calls).announced, []) := by
  have signs : (listener.performAll calls).sign = Link.sampleSign :=
    (listener.performAll_keeps calls).2
  refine (LocalDestination.validate_announce .sample _ none .none).trans ?_
  simp [Curves.sample, signs]

/-- A key pair of a packet, for concrete runs. -/
private def packetSecret : SecretKey := .filled 1

/-- A vector of a packet, for concrete runs. -/
private def packetIv : Iv := .zero

/-- Enabled after the announce, a ratchet does no harm. -/
theorem announced_data_readable_iff_unratcheted_later :
    ∃ packet, (listener.performAll [.setProvePackets true]).announced.dataPacket sums .plain
        packetSecret packetIv [1, 2, 3] = .ok (.ok packet) ∧
      (listener.performAll [.setProvePackets true, .enableRatchet (.filled 9)]).decrypt .plain
        packet.data PACKET_MDU = .ok [1, 2, 3] := by
  -- The announce carries no ratchet key, so the sender encrypts to the identity key, which the ratchet
  -- enabled later does not replace.
  obtain ⟨packet, sent, readable⟩ := announced_data_readable_iff_unratcheted sums_lawful
    CipherSuite.plain_lawful CipherSuite.plain_encrypts [.enableRatchet (.filled 9)]
    (.announce .newEmpty 7 none) (listener_valid [.setProvePackets true])
    (show [1, 2, 3].length ≤ ENCRYPTED_PACKET_MDU by decide) packetSecret packetIv
  have unratcheted : (listener.performAll [.setProvePackets true]).announced.ratchetPublicKey =
      none := rfl
  refine ⟨packet, sent, (readable (fun ratchet enabled => ?_) _ (.inr le_rfl)).mpr (by decide)⟩
  rw [unratcheted] at enabled
  cases enabled

/-- Enabled before it, what is sent for the ratchet's key is rejected. -/
theorem ratcheted_data_unreadable :
    sums.Lawful ∧ CipherSuite.plain.Lawful ∧ CipherSuite.plain.Encrypts ∧
      [1, 2, 3].length ≤ ENCRYPTED_PACKET_MDU ∧ ∃ output packet,
        DestinationAnnounce.validate .sample ((listener.enableRatchet (.filled 9)).announce
          .newEmpty 7 none) = .ok (output, []) ∧
        output.dataPacket sums .plain packetSecret packetIv [1, 2, 3] = .ok (.ok packet) ∧
        ∀ room, (listener.enableRatchet (.filled 9)).decrypt .plain packet.data room =
          .error .incorrectSignature := by
  -- The packet is encrypted for the ratchet, and the key that opens it is never used.
  obtain ⟨cipherText, first, packet, encrypted, sent, data, -, -, -⟩ :=
    SingleOutputDestination.dataPacket_ok sums (listener.enableRatchet (.filled 9)).announced
      CipherSuite.plain_lawful CipherSuite.plain_encrypts
        (show [1, 2, 3].length ≤ ENCRYPTED_PACKET_MDU by decide)
      packetSecret packetIv
  refine ⟨sums_lawful, CipherSuite.plain_lawful, CipherSuite.plain_encrypts, by decide, _, packet,
    listener_valid [.enableRatchet (.filled 9)], sent, fun room => ?_⟩
  obtain rfl : CipherSuite.pad [1, 2, 3] = cipherText := by
    simp only [CipherSuite.plain, Option.ite_none_left_eq_some, Option.some.injEq] at encrypted
    exact encrypted.2
  rw [data, LocalDestination.decrypt_token sums_lawful _ packetSecret (by decide)]
  refine if_neg ?_
  decide +kernel

end Reticulum
