import ReticulumSdk.Transport.Discovery

/-! The stamps of announced interfaces: the workblock they are checked against, and what they let through. -/

namespace Reticulum

variable {codec : Msgpack.Codec} {rounds : Nat}

/-- A round adds a block, as long as its number can be written and there is room. -/
theorem stampRound_ok (hkdf : HkdfSha256) (material : Bytes) {workblock : Bytes} {round : Nat}
    (writes : (codec.writeValue (.integer round)).isSome)
    (room : workblock.length + 256 ≤ WORKBLOCK_SIZE) :
    ∃ salt block, hkdf.expand salt material 256 = some block ∧
      stampRound codec hkdf material workblock round = .ok (workblock ++ block.val) := by
  obtain ⟨roundBuf, written⟩ := Option.isSome_iff_exists.mp writes
  -- An expansion of this length does not fail.
  have short : ¬ HKDF_MAX_LENGTH < 256 := by decide
  obtain ⟨block, expanded⟩ := Option.ne_none_iff_exists'.mp fun fails =>
    short ((hkdf.fails_iff (Hash.generate (material ++ roundBuf)).bytes material 256).mp fails)
  refine ⟨_, block, expanded, ?_⟩
  have fits : ¬ workblock.length + block.val.length > WORKBLOCK_SIZE := by
    have width := block.property
    omega
  simp only [stampRound, written, expanded, if_neg fits]

/-- So a workblock is made of expansions, and none runs out of the room there is for it. -/
theorem stampWorkblock_ok (hkdf : HkdfSha256) (material : Bytes)
    (writes : ∀ round < rounds, (codec.writeValue (.integer round)).isSome)
    (room : 256 * rounds ≤ WORKBLOCK_SIZE) :
    ∃ workblock, stampWorkblock codec hkdf material rounds = .ok workblock ∧
      workblock.length = 256 * rounds ∧
      ∀ byte ∈ workblock, ∃ salt block, hkdf.expand salt material 256 = some block ∧
        byte ∈ block.val := by
  -- Each round adds its block at the end.
  induction rounds with
  | zero => exact ⟨[], rfl, rfl, fun byte member => nomatch member⟩
  | succ rounds ih =>
    obtain ⟨workblock, worked, length, made⟩ :=
      ih (fun round before => writes round (Nat.lt_succ_of_lt before)) (by omega)
    have space : workblock.length + 256 ≤ WORKBLOCK_SIZE := by omega
    obtain ⟨salt, block, expanded, added⟩ :=
      stampRound_ok hkdf material (writes rounds rounds.lt_succ_self) space
    refine ⟨workblock ++ block.val, ?_, ?_, fun byte member => ?_⟩
    · rw [stampWorkblock] at worked
      rw [stampWorkblock, List.range_succ, List.foldlM_append, worked]
      simp only [List.foldlM_cons, List.foldlM_nil, bind_pure]
      exact added
    · have width := block.property
      rw [List.length_append]
      omega
    · rcases List.mem_append.mp member with before | here
      · exact made byte before
      · exact ⟨salt, block, expanded, here⟩

/-- A stamp can be found for any content. -/
def Stampable (codec : Msgpack.Codec) (hkdf : HkdfSha256) (targetCost : Nat) : Prop :=
  ∀ packed, ∃ stamp workblock, stamp.length = HASH_SIZE ∧
    stampWorkblock codec hkdf (Hash.generate packed).bytes WORKBLOCK_EXPAND_ROUNDS = .ok workblock ∧
    stampValid stamp targetCost workblock

namespace DiscoveredInterface

variable {hkdf : HkdfSha256} {curves : Curves} {source : DestinationDesc} {hops : UInt8}
variable {packed stamp workblock : Bytes}
variable {requiredStampValue : Nat} {map : List (Value × Value)}

/-- A dictionary that is not signed and has a valid stamp is read for what it says. -/
theorem fromAnnounce_stamped (read : (codec.readValue packed).bind Value.asMap = some map)
    (content : packed ≠ []) (full : stamp.length = HASH_SIZE)
    (worked : stampWorkblock codec hkdf (Hash.generate packed).bytes WORKBLOCK_EXPAND_ROUNDS =
      .ok workblock)
    (valid : stampValid stamp requiredStampValue workblock) :
    fromAnnounceWithRequiredValue codec hkdf curves source hops (0 :: (packed ++ stamp))
      requiredStampValue = ofMap source hops (Reticulum.stampValue stamp workblock) map := by
  have filled := List.length_pos_of_ne_nil content
  have tail : tailLength 0 = HASH_SIZE := rfl
  have length : (0 :: (packed ++ stamp)).length = 1 + packed.length + HASH_SIZE := by
    rw [List.length_cons, List.length_append, full]
    omega
  -- Without a signature, the stamp is the end of the bytes.
  have front : packedOf 0 (0 :: (packed ++ stamp)) = packed := by
    rw [packedOf, length, tail, Nat.add_sub_cancel, Nat.add_comm, List.take_succ_cons, List.drop_one,
      List.tail_cons, List.take_left]
  have behind : stampOf 0 (0 :: (packed ++ stamp)) = stamp := by
    rw [stampOf, length, tail, Nat.add_sub_cancel, Nat.add_comm, List.drop_succ_cons, List.drop_left,
      List.take_of_length_le (by omega)]
  have plain : ¬ (0 : UInt8) &&& FLAG_ENCRYPTED ≠ 0 := by decide
  have unsigned : ¬ (0 : UInt8) &&& FLAG_SIGNED ≠ 0 := by decide
  have long : ¬ (0 :: (packed ++ stamp)).length ≤ 1 + tailLength 0 := by
    rw [length, tail]
    omega
  unfold fromAnnounceWithRequiredValue
  simp only [if_neg plain, if_neg long, unsigned, false_and, if_false, front, behind, worked, valid, read,
    bind, Except.bind, not_true_eq_false]

end DiscoveredInterface

end Reticulum
