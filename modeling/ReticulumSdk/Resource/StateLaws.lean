import ReticulumSdk.Resource.State

/-! What the constructors establish: the parts, their names and the collision guard. -/

namespace Reticulum

open Resource

/-- The parts are the slices in order, named by their hashes and not sent yet. -/
theorem guardedParts_parts {guardSize : Nat} {randomHash : RandomHash}
    {collisionGuard : List MapHash} {slices : List Bytes} {parts : List ResourcePart}
    (named : guardedParts guardSize randomHash collisionGuard slices = some parts) :
    parts = slices.map fun data =>
      { data := data, mapHash := mapHashOf data randomHash, sent := false } := by
  -- Each slice is named by itself, or the salt is given up.
  induction slices generalizing collisionGuard parts with
  | nil => exact (Option.some.inj named).symm
  | cons partData rest ih =>
    simp only [guardedParts] at named
    split at named
    · cases named
    · obtain ⟨later, naming, rfl⟩ := Option.map_eq_some_iff.mp named
      rw [ih naming]
      rfl

/-- Items that differ from the ones so many places before them. -/
def DistinctWithin {α : Type} (reach : Nat) (items : List α) : Prop :=
  ∀ i j item, i < j → j ≤ i + reach → items[i]? = some item → items[j]? ≠ some item

/-- Slices whose hashes differ within the guard's reach are named at once. -/
theorem guardedParts_of_distinctWithin {guardSize : Nat} {randomHash : RandomHash}
    {collisionGuard : List MapHash} {slices : List Bytes}
    (apart : DistinctWithin guardSize (collisionGuard ++ slices.map (mapHashOf · randomHash)))
    (room : collisionGuard.length ≤ guardSize) :
    guardedParts guardSize randomHash collisionGuard slices = some (slices.map fun data =>
      { data := data, mapHash := mapHashOf data randomHash, sent := false }) := by
  -- Each hash moves from the slices to the end of the guard, which forgets those out of reach.
  induction slices generalizing collisionGuard with
  | nil => rfl
  | cons data rest ih =>
    rw [List.map_cons] at apart
    have fresh : mapHashOf data randomHash ∉ collisionGuard := by
      intro member
      obtain ⟨i, inside, same⟩ := List.mem_iff_getElem.mp member
      refine apart i collisionGuard.length (mapHashOf data randomHash) inside (by omega) ?_ ?_
      · rw [List.getElem?_append_left inside, List.getElem?_eq_getElem inside, same]
      · simp
    rw [← List.singleton_append, ← List.append_assoc] at apart
    have named : guardedParts guardSize randomHash
        (if (collisionGuard ++ [mapHashOf data randomHash]).length > guardSize then
          (collisionGuard ++ [mapHashOf data randomHash]).tail
        else collisionGuard ++ [mapHashOf data randomHash]) rest = some (rest.map fun data =>
          { data := data, mapHash := mapHashOf data randomHash, sent := false }) := by
      split
      · refine ih ?_ (by simpa using room)
        -- What the guard forgot stands in front of all the others.
        have front : ∀ k, ((collisionGuard ++ [mapHashOf data randomHash]).tail ++
            rest.map (mapHashOf · randomHash))[k]? = (collisionGuard ++ [mapHashOf data randomHash] ++
              rest.map (mapHashOf · randomHash))[k + 1]? := by
          intro k
          cases collisionGuard <;> simp
        intro i j item order near here
        rw [front] at here ⊢
        exact apart (i + 1) (j + 1) item (by omega) (by omega) here
      · exact ih apart (by omega)
    simp only [guardedParts, fresh, if_false, named, Option.map_some, List.map_cons]

/-- Slices whose hashes all differ are named at once. -/
theorem guardedParts_of_nodup {guardSize : Nat} {randomHash : RandomHash} {slices : List Bytes}
    (distinct : (slices.map (mapHashOf · randomHash)).Nodup) :
    guardedParts guardSize randomHash [] slices = some (slices.map fun data =>
      { data := data, mapHash := mapHashOf data randomHash, sent := false }) := by
  refine guardedParts_of_distinctWithin (fun i j item order near here there => ?_) (Nat.zero_le _)
  -- One place is not another.
  obtain ⟨inside, same⟩ := List.getElem?_eq_some_iff.mp here
  obtain ⟨outside, again⟩ := List.getElem?_eq_some_iff.mp there
  exact List.pairwise_iff_getElem.mp distinct i j inside outside order (same.trans again.symm)

/-- No hash repeats within the guard's reach, the hashes of the guard included. -/
private theorem guardedParts_apart {guardSize : Nat} {randomHash : RandomHash}
    {collisionGuard : List MapHash} {slices : List Bytes} {parts : List ResourcePart}
    (named : guardedParts guardSize randomHash collisionGuard slices = some parts) {i j : Nat}
    (order : i < j) (new : collisionGuard.length ≤ j) (near : j ≤ i + guardSize)
    (inside : j < collisionGuard.length + parts.length) :
    (collisionGuard ++ parts.map (·.mapHash))[i]? ≠
      (collisionGuard ++ parts.map (·.mapHash))[j]? := by
  -- By induction over the slices: the guard is always the last hashes of what was named so far.
  induction slices generalizing collisionGuard parts i j with
  | nil =>
    obtain rfl := Option.some.inj named
    simp only [List.length_nil] at inside
    omega
  | cons partData rest ih =>
    simp only [guardedParts] at named
    split at named
    · cases named
    · rename_i absent
      obtain ⟨later, naming, rfl⟩ := Option.map_eq_some_iff.mp named
      simp only [List.length_cons] at inside
      have whole : collisionGuard ++ (mapHashOf partData randomHash ::
          later.map (·.mapHash)) =
          (collisionGuard ++ [mapHashOf partData randomHash]) ++ later.map (·.mapHash) := by simp
      simp only [List.map_cons, whole]
      rcases Nat.lt_or_eq_of_le new with further | here
      · split at naming
        · -- The guard dropped its oldest hash, which is out of reach of every later part.
          rename_i full
          have shorter : (collisionGuard ++ [mapHashOf partData randomHash]).tail.length =
              collisionGuard.length := by simp
          simp only [List.length_append, List.length_cons, List.length_nil] at full
          obtain ⟨i, rfl⟩ : ∃ k, i = k + 1 := ⟨i - 1, by omega⟩
          obtain ⟨j, rfl⟩ : ∃ k, j = k + 1 := ⟨j - 1, by omega⟩
          have apart := ih naming (show i < j by omega) (by omega) (by omega) (by omega)
          have shift : ∀ k, (collisionGuard ++ [mapHashOf partData randomHash] ++
              later.map (·.mapHash))[k + 1]? =
              ((collisionGuard ++ [mapHashOf partData randomHash]).tail ++
                later.map (·.mapHash))[k]? := by
            intro k
            cases collisionGuard <;> simp
          rw [shift, shift]
          exact apart
        · exact ih naming order (by simp; omega) near (by simp; omega)
      · -- The part itself was compared with the whole guard.
        subst here
        have itself : (collisionGuard ++ [mapHashOf partData randomHash] ++
            later.map (·.mapHash))[collisionGuard.length]? = some (mapHashOf partData randomHash) := by
          simp
        rw [List.append_assoc, List.getElem?_append_left order, ← List.append_assoc, itself]
        intro same
        exact absent (List.mem_of_getElem? same)

/-- Parts as close as the collision guard reaches have different hashes. -/
theorem guardedParts_distinct {guardSize : Nat} {randomHash : RandomHash} {slices : List Bytes}
    {parts : List ResourcePart} (named : guardedParts guardSize randomHash [] slices = some parts)
    {i j : Nat} {first second : ResourcePart} (order : i < j) (near : j ≤ i + guardSize)
    (here : parts[i]? = some first) (there : parts[j]? = some second) :
    first.mapHash ≠ second.mapHash := by
  obtain ⟨inside, -⟩ := List.getElem?_eq_some_iff.mp there
  have apart := guardedParts_apart named order (Nat.zero_le _) near (by simpa using inside)
  simpa [here, there] using apart

/-- The attempt that ended the collision loop. -/
theorem nameParts_guarded {guardSize : Nat} {slices : List Bytes} {salts : List RandomHash}
    {randomHash : RandomHash} {parts : List ResourcePart}
    (named : nameParts guardSize slices salts = some (randomHash, parts)) :
    guardedParts guardSize randomHash [] slices = some parts := by
  -- The salt that is settled on is one that named all slices.
  induction salts with
  | nil => cases named
  | cons salt rest ih =>
    unfold nameParts at named
    split at named
    · rename_i settled found
      obtain ⟨rfl, rfl⟩ := Prod.mk.inj (Option.some.inj named)
      exact found
    · exact ih named

/-- The first slices of a list, joined again. -/
theorem flatMap_slices {α : Type} (items : List α) (size count : Nat) :
    ((List.range count).flatMap fun i => (items.drop (i * size)).take size) = items.take (count * size) := by
  -- One slice more is the next so many items.
  induction count with
  | zero => simp
  | succ count ih =>
    rw [List.range_succ, List.flatMap_append, ih, Nat.succ_mul, List.take_add]
    simp

/-- The slices of a buffer, joined again, are the buffer. -/
theorem cutParts_flatten {encryptedBuf : Bytes} {sdu : Nat} (positive : sdu ≠ 0) :
    (cutParts encryptedBuf sdu).flatten = encryptedBuf := by
  have slice : ∀ i, (encryptedBuf.take (min (i * sdu + sdu) encryptedBuf.length)).drop (i * sdu) =
      (encryptedBuf.drop (i * sdu)).take sdu := by
    intro i
    rw [← List.take_eq_take_min, List.drop_take]
    congr 1
    omega
  unfold cutParts
  simp only [slice, ← List.flatMap_def]
  rw [flatMap_slices]
  -- The number of slices is the quotient rounded up, so they reach the end.
  have cover : encryptedBuf.length ≤ (encryptedBuf.length + sdu - 1) / sdu * sdu := by
    have := Nat.div_add_mod (encryptedBuf.length + sdu - 1) sdu
    have := Nat.mod_lt (encryptedBuf.length + sdu - 1) (Nat.pos_of_ne_zero positive)
    have := Nat.mul_comm sdu ((encryptedBuf.length + sdu - 1) / sdu)
    omega
  exact List.take_of_length_le cover

/-- Full slices joined and cut again are the slices. -/
theorem cutParts_blocks {blocks : List Bytes} {sdu : Nat} (positive : sdu ≠ 0)
    (full : ∀ block ∈ blocks, block.length = sdu) : cutParts blocks.flatten sdu = blocks := by
  -- The total length is a multiple of the block size, so the count of cuts is the count of blocks.
  have length : blocks.flatten.length = blocks.length * sdu := by
    rw [List.length_flatten, List.map_congr_left full]
    simp
  have count : (blocks.flatten.length + sdu - 1) / sdu = blocks.length := by
    have shift : blocks.flatten.length + sdu - 1 = (sdu - 1) + blocks.length * sdu := by omega
    rw [shift, Nat.add_mul_div_right _ _ (Nat.pos_of_ne_zero positive),
      Nat.div_eq_of_lt (by omega), Nat.zero_add]
  -- Every full block is cut out again at its own place.
  have slice : ∀ (rest : List Bytes), (∀ block ∈ rest, block.length = sdu) → ∀ i,
      i < rest.length → rest[i]? = some ((rest.flatten.drop (i * sdu)).take sdu) := by
    intro rest
    induction rest with
    | nil =>
      intro _ i inside
      cases inside
    | cons block rest ih =>
      intro full i inside
      have here := full block List.mem_cons_self
      cases i with
      | zero => simp [here]
      | succ i =>
        have tail := ih (fun later member => full later (List.mem_cons_of_mem _ member)) i
          (by simpa using inside)
        have skip : (i + 1) * sdu = block.length + i * sdu := by
          rw [here, Nat.succ_mul, Nat.add_comm]
        rw [List.flatten_cons, skip, ← List.drop_drop, List.drop_left, ← tail]
        simp
  apply List.ext_getElem?
  intro i
  unfold cutParts
  rw [count, List.getElem?_map]
  by_cases inside : i < blocks.length
  · rw [List.getElem?_range inside, slice blocks full i inside, Option.map_some,
      ← List.take_eq_take_min, List.drop_take]
    congr 2
    omega
  · rw [List.getElem?_eq_none (by simpa using inside), List.getElem?_eq_none (by omega)]
    rfl

/-- What a finished construction computed, with the attempts at naming its parts. -/
theorem Resource.new_attempts {bzip2 : Bzip2} {draws : Draws} {data : Bytes} {linkMdu : Nat}
    {encrypt : Cipher} {requestId : Option Bytes} {isResponse autoCompress : Bool} {now : Instant}
    {r : Resource} (built : Resource.new bzip2 draws data linkMdu encrypt requestId isResponse
      autoCompress now = .ok (some (.ok r))) :
    ∃ payload compressed encryptedBuf randomHash parts,
      choosePayload bzip2 data autoCompress = .ok (payload, compressed) ∧
      encrypt.run (draws.inlineRandom.toBytes ++ payload) = .ok encryptedBuf ∧
      linkMdu ≠ 0 ∧ encryptedBuf.length < isizeRange ∧
      (cutParts encryptedBuf linkMdu).length * 32 < isizeRange ∧
      nameParts (collisionGuardSize linkMdu) (cutParts encryptedBuf linkMdu)
        (draws.randomHash :: draws.retries) = some (randomHash, parts) ∧
      r = .outgoing draws.randomHash randomHash data encryptedBuf parts linkMdu compressed requestId
        isResponse now := by
  -- Every other exit of the constructor is an error or a panic.
  unfold Resource.new at built
  split at built
  · cases built
  · rename_i payload compressed chosen
    split at built
    · cases built
    · rename_i encryptedBuf encrypted
      split at built
      · cases built
      · rename_i positive
        simp only [bind_eq_ok] at built
        obtain ⟨_, buffer, _, vector, built⟩ := built
        split at built
        · cases built
        · rename_i randomHash parts named
          obtain rfl := Except.ok.inj (Option.some.inj (Except.ok.inj built))
          refine ⟨payload, compressed, encryptedBuf, randomHash, parts, chosen, encrypted, positive,
            ?_, ?_, named, rfl⟩
          · simpa using lt_of_allocate buffer
          · exact lt_of_allocate vector

/-- What a finished construction computed, step by step. -/
theorem Resource.new_cases {bzip2 : Bzip2} {draws : Draws} {data : Bytes} {linkMdu : Nat}
    {encrypt : Cipher} {requestId : Option Bytes} {isResponse autoCompress : Bool} {now : Instant}
    {r : Resource} (built : Resource.new bzip2 draws data linkMdu encrypt requestId isResponse
      autoCompress now = .ok (some (.ok r))) :
    ∃ payload compressed encryptedBuf randomHash parts,
      choosePayload bzip2 data autoCompress = .ok (payload, compressed) ∧
      encrypt.run (draws.inlineRandom.toBytes ++ payload) = .ok encryptedBuf ∧
      linkMdu ≠ 0 ∧ encryptedBuf.length < isizeRange ∧
      (cutParts encryptedBuf linkMdu).length * 32 < isizeRange ∧
      guardedParts (collisionGuardSize linkMdu) randomHash [] (cutParts encryptedBuf linkMdu) =
        some parts ∧
      r = .outgoing draws.randomHash randomHash data encryptedBuf parts linkMdu compressed requestId
        isResponse now := by
  -- The last attempt is the one that named all parts.
  obtain ⟨payload, compressed, encryptedBuf, randomHash, parts, chosen, encrypted, positive, buffer,
    vector, named, same⟩ := Resource.new_attempts built
  exact ⟨payload, compressed, encryptedBuf, randomHash, parts, chosen, encrypted, positive, buffer,
    vector, nameParts_guarded named, same⟩

/-- Copying undoes copying. -/
theorem copyCipher_inverse (plain copied : Bytes) (done : copyCipher.run plain = .ok copied) :
    copyCipher.run copied = .ok plain := by
  rw [copyCipher_run] at done ⊢
  rw [Except.ok.inj done]

/-- A compressor that stores its input, for concrete runs. -/
def storeBzip2 : Bzip2 where
  encode := some
  decode data limit := some (data.take limit)

/-- Stored data is read back up to the limit. -/
theorem storeBzip2_lossless (plain packed : Bytes) (limit : Nat)
    (stored : storeBzip2.encode plain = some packed) :
    storeBzip2.decode packed limit = some (plain.take limit) := by
  rw [Option.some.inj stored]
  rfl

/-- A resource whose encrypted stream is made of full slices, named by these. -/
theorem new_of_blocks {blocks : List Bytes} {linkMdu : Nat} {parts : List ResourcePart}
    {data : Bytes} {requestId : Option Bytes} (stream : FourBytes.zero.toBytes ++ data = blocks.flatten)
    (positive : linkMdu ≠ 0) (full : ∀ block ∈ blocks, block.length = linkMdu)
    (small : blocks.length * 32 < isizeRange ∧ blocks.length * linkMdu < isizeRange)
    (named : guardedParts (collisionGuardSize linkMdu) .zero [] blocks = some parts) :
    Resource.new storeBzip2 ⟨.zero, .zero, []⟩ data linkMdu copyCipher requestId false false 0 =
      .ok (some (.ok (.outgoing .zero .zero data blocks.flatten parts linkMdu false requestId false 0))) := by
  -- Without compression and with a cipher that copies, the stream is cut into the blocks themselves.
  have length : blocks.flatten.length = blocks.length * linkMdu := by
    rw [List.length_flatten, List.map_congr_left full]
    simp
  have copied : copyCipher.run (FourBytes.zero.toBytes ++ data) = .ok blocks.flatten := by
    rw [stream, copyCipher_run]
  have buffer : allocate blocks.flatten.length 1 = .ok () := by simp [allocate, length, small.2]
  have vector : allocate blocks.length 32 = .ok () := by simp [allocate, small.1]
  simp only [Resource.new, choosePayload, Bool.false_and, Bool.false_eq_true, if_false, pure,
    Except.pure, copied, positive, cutParts_blocks positive full, buffer, vector, nameParts, named,
    Bind.bind, Except.bind]

/-- The outgoing resource of some data under salts of zeros, if its construction finishes. -/
def plainResource (data : Bytes) (linkMdu : Nat) : Option Resource :=
  match Resource.new storeBzip2 ⟨.zero, .zero, []⟩ data linkMdu copyCipher none false false 0 with
  | .ok (some (.ok r)) => some r
  | _ => none

/-- It was built by the constructor. -/
theorem new_of_plainResource {data : Bytes} {linkMdu : Nat} {r : Resource}
    (made : plainResource data linkMdu = some r) :
    Resource.new storeBzip2 ⟨.zero, .zero, []⟩ data linkMdu copyCipher none false false 0 =
      .ok (some (.ok r)) := by
  -- The plain constructor is the result of the other, where it has one.
  unfold plainResource at made
  split at made
  · rename_i built
    rw [built, Option.some.inj made]
  · cases made

/-- A slice of a link that carries three hashes a segment. -/
def sliceOf (k : Nat) : Bytes := List.replicate 145 0 ++ [UInt8.ofNat k]

/-- What a salted and padded slice goes on with after its two blocks of zeros. -/
def lastBlock (k : Nat) : Bytes :=
  List.replicate 17 0 ++ [UInt8.ofNat k, 0, 0, 0, 0, 0x80] ++ List.replicate 33 0 ++
    Sha256.bigEndian 8 1200

/-- The chaining state after the two blocks of zeros. -/
def afterZeros : Sha256.State :=
  ⟨0x68819422, 0x197e5f1d, 0xdcc24903, 0xa8459467, 0x7c687e70, 0x1c623cd2, 0x82cd59d8, 0xe5e4df2b⟩

/-- It is. -/
theorem blocks_zeros :
    Sha256.blocks 2 (List.replicate 128 0) Sha256.initial = afterZeros := rfl

/-- The slices are told apart by their last block only, so that one compression hashes each. -/
theorem mapHashOf_sliceOf (k : Nat) :
    mapHashOf (sliceOf k) .zero =
      FourBytes.ofBytes (Sha256.bigEndian 4 (Sha256.compress afterZeros (lastBlock k)).a) := by
  -- Every slice begins with the same two blocks, which are compressed once.
  have padded : Sha256.pad (sliceOf k ++ FourBytes.zero.toBytes) =
      List.replicate 128 0 ++ lastBlock k := by
    simp [Sha256.pad, sliceOf, lastBlock, FourBytes.toBytes, FourBytes.zero]
  have whole : (List.replicate 128 (0 : UInt8)).length = 64 * 2 := List.length_replicate
  have ending : (lastBlock k).length = 64 := by simp [lastBlock]
  have hashed := Sha256.hash_take padded whole ending
  rw [mapHashOf, ← FourBytes.ofBytes_take, Hash.generate, hashed, blocks_zeros]

end Reticulum
