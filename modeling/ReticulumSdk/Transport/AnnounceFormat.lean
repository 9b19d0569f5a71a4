import ReticulumSdk.Destination.Ratchet
import ReticulumSdk.Transport.PathTable

/-! The bytes of an announce: what a destination writes is read back, and what a signature fixes of it. -/

namespace Reticulum

section RoundTrip

/-- A byte of a number is a digit of it in base 256. -/
private theorem toUInt8_toNat (number : UInt64) (shift : UInt64) (small : shift.toNat < 64) :
    (number >>> shift).toUInt8.toNat = number.toNat / 2 ^ shift.toNat % 256 := by
  rw [UInt64.toNat_toUInt8, UInt64.toNat_shiftRight, Nat.mod_eq_of_lt small, Nat.shiftRight_eq_div_pow]

/-- The time in the random hash of an announce is the low part of the clock it was built at. -/
theorem timebase_buildAnnounceRandHash (random : Hash) (timestampSecs : UInt64) :
    timebaseFromRandomBlob (buildAnnounceRandHash random timestampSecs) =
      timestampSecs.toNat % 2 ^ 40 := by
  -- The five bytes behind the random ones are the digits of the clock.
  have width : (random.bytes.take (RAND_HASH_LENGTH / 2)).length = RAND_HASH_LENGTH / 2 := by
    rw [List.length_take, random.length_eq]
    rfl
  have last : timestampSecs.toUInt8.toNat = timestampSecs.toNat % 256 := UInt64.toNat_toUInt8 _
  unfold timebaseFromRandomBlob buildAnnounceRandHash
  rw [List.drop_left' width]
  simp only [ofBeBytes, List.cons_append, List.nil_append, List.foldl_cons, List.foldl_nil,
    toUInt8_toNat timestampSecs 32 (by decide), toUInt8_toNat timestampSecs 24 (by decide),
    toUInt8_toNat timestampSecs 16 (by decide), toUInt8_toNat timestampSecs 8 (by decide), last]
  have shifts : (32 : UInt64).toNat = 32 ∧ (24 : UInt64).toNat = 24 ∧ (16 : UInt64).toNat = 16 ∧
      (8 : UInt64).toNat = 8 ∧ (0 : UInt8).toNat = 0 := by decide
  rw [shifts.1, shifts.2.1, shifts.2.2.1, shifts.2.2.2.1, shifts.2.2.2.2]
  omega

/-- The random hash of an announce is read where it was written. -/
theorem announceRandomBlob_announce {agreement : KeyAgreement} (destination : LocalDestination agreement)
    (randHash : RandHash) (appData : Option Bytes) :
    announceRandomBlob (destination.announceWithRandHash randHash appData) = some randHash := by
  have publicWidth := destination.desc.identity.publicKey.length_eq
  have verifyingWidth := destination.desc.identity.verifyingKey.length_eq
  have nameWidth := destination.name.asNameHashSlice_length
  have randWidth := randHash.length_eq
  -- It stands behind the two keys and the hash of the name.
  have whole : (destination.announceWithRandHash randHash appData).data =
      (destination.desc.identity.publicKey.bytes ++ (destination.desc.identity.verifyingKey.bytes ++
        destination.name.asNameHashSlice)) ++ (randHash.bytes ++
          (destination.ratchetPublicKey.elim [] (·.bytes) ++
            ((destination.sign (destination.announceSigned randHash appData)).bytes ++
              appData.getD []))) := by
    simp only [LocalDestination.announceWithRandHash, LocalDestination.buildAnnouncePacketData,
      LocalDestination.announceFront, List.append_assoc]
  have before : (destination.desc.identity.publicKey.bytes ++
      (destination.desc.identity.verifyingKey.bytes ++ destination.name.asNameHashSlice)).length =
        ANNOUNCE_RANDOM_BLOB_OFFSET := by
    simp only [List.length_append, publicWidth, verifyingWidth, nameWidth]
    rfl
  generalize destination.desc.identity.publicKey.bytes ++
    (destination.desc.identity.verifyingKey.bytes ++ destination.name.asNameHashSlice) = front
    at whole before
  have long : ANNOUNCE_RANDOM_BLOB_OFFSET + RAND_HASH_LENGTH ≤
      (destination.announceWithRandHash randHash appData).data.length := by
    rw [whole, List.length_append, List.length_append, before, randWidth]
    omega
  unfold announceRandomBlob
  rw [dif_pos long]
  refine congrArg some ?_
  have same := DestinationAnnounce.field_eq _ whole before randWidth
  obtain ⟨bytes, width⟩ := randHash
  simp only [RandHash.mk.injEq]
  exact same

end RoundTrip

/-- What a destination announces is read as it is, and when it was announced. -/
theorem announce_round_trip {agreement : KeyAgreement} {curves : Curves}
    (destination : LocalDestination agreement) (randHash : RandHash) (appData : Option Bytes)
    (valid : curves.validKey destination.desc.identity.verifyingKey = true)
    (verifies : ∀ text, curves.verify destination.desc.identity.verifyingKey text
      (destination.sign text) = true) :
    (∃ output, DestinationAnnounce.validate curves
        (destination.announceWithRandHash randHash appData) = .ok (output, appData.getD []) ∧
      output.identity = destination.desc.identity ∧
      output.addressHash = destination.desc.addressHash ∧
      output.name.asNameHashSlice = destination.name.asNameHashSlice ∧
      output.ratchetPublicKey = destination.ratchetPublicKey) ∧
    announceRandomBlob (destination.announceWithRandHash randHash appData) = some randHash ∧
    ∀ random timestampSecs, randHash = buildAnnounceRandHash random timestampSecs →
      timebaseFromRandomBlob randHash = timestampSecs.toNat % 2 ^ 40 := by
  -- The announce passes each check of its own keys.
  have accepted := @LocalDestination.validate_announce _ destination curves randHash appData .none
  rw [if_pos valid, if_pos (verifies _)] at accepted
  refine ⟨⟨destination.announced, accepted, rfl, rfl,
    DestinationName.asNameHashSlice_newFromHashSlice _, rfl⟩,
    announceRandomBlob_announce destination randHash appData, ?_⟩
  rintro random timestampSecs rfl
  exact timebase_buildAnnounceRandHash random timestampSecs

/-- A destination without a ratchet whose announce carries three bytes is read back whole. -/
theorem announce_round_trip_sample : ∃ output, DestinationAnnounce.validate .sample
    (LocalDestination.sample.announceWithRandHash (.sample 3 100) (some [1, 2, 3])) =
      .ok (output, [1, 2, 3]) := by
  obtain ⟨⟨output, read, -⟩, -⟩ := @announce_round_trip _ .sample LocalDestination.sample
    (.sample 3 100) (some [1, 2, 3]) rfl (fun _ => decide_eq_true rfl)
  exact ⟨output, read⟩

namespace DestinationAnnounce

/-- What the signature of an announce is checked over. -/
def Parts.signed (parts : Parts) (destination : AddressHash) : Bytes :=
  destination.bytes ++ (parts.publicKey.bytes ++ (parts.verifyingKey.bytes ++ (parts.nameHash ++
    (parts.randHash ++ parts.ratchet.elim [] (·.bytes))))) ++ parts.appData

/-- The keys, the hashes, the signature, and what is signed. -/
def Parts.core (parts : Parts) (destination : AddressHash) :
    PublicKey × PublicKey × Bytes × Bytes × Signature × Bytes :=
  (parts.publicKey, parts.verifyingKey, parts.nameHash, parts.randHash, parts.signature,
    parts.signed destination)

/-- The header alone tells whether a ratchet was read. -/
private theorem readTail_ratchet {contextFlag : ContextFlag} {data : Bytes}
    {long : MIN_ANNOUNCE_DATA_LENGTH ≤ data.length} {ratchet : Option PublicKey}
    {signature : Signature} {appData : Bytes}
    (read : readTail contextFlag data long = .ok (ratchet, signature, appData)) :
    ratchet.isSome = decide (contextFlag = .set) := by
  unfold readTail at read
  dsimp only at read
  split at read
  · -- A promised ratchet is read, or nothing is.
    rename_i set
    split at read
    · obtain ⟨rfl, -⟩ := Prod.mk.inj (Except.ok.inj read)
      simp [set]
    · cases read
  · rename_i unset
    obtain ⟨rfl, -⟩ := Prod.mk.inj (Except.ok.inj read)
    simp [unset]

/-- What a valid announce is read as are its fields, whose signature was checked. -/
theorem validate_parts {curves : Curves} {packet : Packet} {output : SingleOutputDestination}
    {appData : Bytes} (valid : validate curves packet = .ok (output, appData)) :
    ∃ fields, parts packet = .ok fields ∧ output.ratchetPublicKey = fields.ratchet ∧
      appData = fields.appData ∧
      fields.ratchet.isSome = decide (packet.header.contextFlag = .set) ∧
      curves.verify fields.verifyingKey (fields.signed packet.destination) fields.signature = true := by
  -- Every early exit is an error, so the last one was taken.
  unfold validate at valid
  dsimp only at valid
  split at valid
  · cases valid
  split at valid
  · cases valid
  split at valid
  · rename_i long
    obtain ⟨identity, accepted, valid⟩ := bind_eq_ok.mp valid
    obtain ⟨⟨ratchet, signature, rest⟩, tail, valid⟩ := bind_eq_ok.mp valid
    unfold Identity.newFromSlices at accepted
    split at accepted
    · obtain rfl := Except.ok.inj accepted
      dsimp only at valid
      split at valid
      · cases valid
      · split at valid
        · rename_i verified
          obtain ⟨rfl, rfl⟩ := Prod.mk.inj (Except.ok.inj valid)
          unfold parts
          rw [dif_pos long, tail]
          exact ⟨_, rfl, rfl, rfl, readTail_ratchet tail, verified⟩
        · cases valid
    · cases accepted
  · cases valid

/-- The bytes of a ratchet and what follows them are what is signed behind the fixed fields. -/
theorem Parts.core_tail {first second : Parts} {destination other : AddressHash}
    (same : first.core destination = second.core other) :
    first.ratchet.elim [] (·.bytes) ++ first.appData =
      second.ratchet.elim [] (·.bytes) ++ second.appData := by
  simp only [core, Prod.mk.injEq] at same
  obtain ⟨publicKey, verifyingKey, nameHash, randHash, -, text⟩ := same
  unfold signed at text
  rw [publicKey, verifyingKey, nameHash, randHash] at text
  simp only [List.append_assoc] at text
  -- Both addresses have their width, and the fields up to the ratchet are the same.
  have behind := (List.append_inj text (destination.length_eq.trans other.length_eq.symm)).2
  simpa only [List.append_cancel_left_eq] using behind

end DestinationAnnounce

open DestinationAnnounce in
/--
Two accepted announces that agree in their keys, hashes, signature and signed bytes carry the same
bytes behind these, and split them alike exactly when their context flags agree.
-/
theorem announce_meaning_iff {curves : Curves} {first second : Packet}
    {output output' : SingleOutputDestination} {appData appData' : Bytes} {fields fields' : Parts}
    (valid : validate curves first = .ok (output, appData))
    (valid' : validate curves second = .ok (output', appData'))
    (read : parts first = .ok fields) (read' : parts second = .ok fields')
    (same : fields.core first.destination = fields'.core second.destination) :
    (output.ratchetPublicKey = output'.ratchetPublicKey ∧ appData = appData' ↔
      first.header.contextFlag = second.header.contextFlag) ∧
    output.ratchetPublicKey.elim [] (·.bytes) ++ appData =
      output'.ratchetPublicKey.elim [] (·.bytes) ++ appData' := by
  obtain ⟨found, here, ratchet, rest, flag, -⟩ := validate_parts valid
  obtain ⟨found', here', ratchet', rest', flag', -⟩ := validate_parts valid'
  obtain rfl := Except.ok.inj (read.symm.trans here)
  obtain rfl := Except.ok.inj (read'.symm.trans here')
  have joined := Parts.core_tail same
  rw [ratchet, ratchet', rest, rest']
  refine ⟨⟨fun both => ?_, fun flags => ?_⟩, joined⟩
  · -- A ratchet is there exactly under a set flag.
    rw [both.1, flag', decide_eq_decide] at flag
    cases one : first.header.contextFlag <;> cases two : second.header.contextFlag <;>
      simp [one, two] at flag ⊢
  · -- Under equal flags both have a ratchet, which is of one width, or neither has.
    rw [flags, ← flag'] at flag
    cases one : fields.ratchet with
    | none =>
      cases two : fields'.ratchet with
      | none =>
        rw [one, two] at joined
        exact ⟨rfl, joined⟩
      | some key => simp [one, two] at flag
    | some key =>
      cases two : fields'.ratchet with
      | none => simp [one, two] at flag
      | some key' =>
        rw [one, two] at joined
        obtain ⟨keys, apps⟩ := List.append_inj joined (key.length_eq.trans key'.length_eq.symm)
        obtain ⟨bytes, width⟩ := key
        obtain rfl : bytes = key'.bytes := keys
        exact ⟨rfl, apps⟩

/-- The announce of a destination with a ratchet, for concrete runs. -/
private def ratcheted : Packet :=
  (LocalDestination.sample.enableRatchet (.filled 9)).announceWithRandHash (.sample 3 100) (some [1])

/-- The same bytes with the ratchet behind the signature, as any relay can move it. -/
private def moved : Packet :=
  LocalDestination.sample.announceWithRandHash (.sample 3 100)
    (some ((PublicKey.filled 9).bytes ++ [1]))

/-- The first is read with its ratchet. -/
private theorem ratcheted_valid : DestinationAnnounce.validate .sample ratcheted =
    .ok ((LocalDestination.sample.enableRatchet (.filled 9)).announced, [1]) := by
  decide +kernel

/-- The second is read without one. -/
private theorem moved_valid : DestinationAnnounce.validate .sample moved =
    .ok (LocalDestination.sample.announced, (PublicKey.filled 9).bytes ++ [1]) := by
  decide +kernel

/-- They agree in all that is signed. -/
private theorem moved_core : ∃ fields fields', DestinationAnnounce.parts ratcheted = .ok fields ∧
    DestinationAnnounce.parts moved = .ok fields' ∧
      fields.core ratcheted.destination = fields'.core moved.destination := by
  -- Both are split at once, and compared.
  have split : passes (do
      let fields ← DestinationAnnounce.parts ratcheted
      let fields' ← DestinationAnnounce.parts moved
      return (fields, fields')) (fun both => decide
        (both.1.core ratcheted.destination = both.2.core moved.destination)) = true := by decide +kernel
  obtain ⟨⟨fields, fields'⟩, read, same⟩ := exists_of_passes split
  obtain ⟨_, here, rest⟩ := bind_eq_ok.mp read
  obtain ⟨_, here', done⟩ := bind_eq_ok.mp rest
  obtain ⟨rfl, rfl⟩ := Prod.mk.inj (Except.ok.inj done)
  exact ⟨_, _, here, here', of_decide_eq_true same⟩

/-- Both are accepted, and are read with different ratchets. -/
theorem announce_meaning_moved : ∃ output output' appData appData' fields fields',
    DestinationAnnounce.validate .sample ratcheted = .ok (output, appData) ∧
      DestinationAnnounce.validate .sample moved = .ok (output', appData') ∧
      DestinationAnnounce.parts ratcheted = .ok fields ∧ DestinationAnnounce.parts moved = .ok fields' ∧
      fields.core ratcheted.destination = fields'.core moved.destination ∧
      ¬ (output.ratchetPublicKey = output'.ratchetPublicKey ∧ appData = appData') := by
  obtain ⟨fields, fields', read, read', same⟩ := moved_core
  exact ⟨_, _, _, _, fields, fields', ratcheted_valid, moved_valid, read, read', same, by decide⟩

/-- The bytes behind the fixed fields are the same in both. -/
theorem announce_meaning_iff_moved : ∃ output output' appData appData',
    DestinationAnnounce.validate .sample ratcheted = .ok (output, appData) ∧
      DestinationAnnounce.validate .sample moved = .ok (output', appData') ∧
      output.ratchetPublicKey.elim [] (·.bytes) ++ appData =
        output'.ratchetPublicKey.elim [] (·.bytes) ++ appData' := by
  obtain ⟨fields, fields', read, read', same⟩ := moved_core
  exact ⟨_, _, _, _, ratcheted_valid, moved_valid,
    (announce_meaning_iff ratcheted_valid moved_valid read read' same).2⟩

end Reticulum
