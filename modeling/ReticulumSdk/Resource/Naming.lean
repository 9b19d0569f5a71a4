import ReticulumSdk.Resource.StateLaws

/-! What an outgoing resource is named by, and what is left of the name after a collision of its parts. -/

namespace Reticulum

open Resource

/-- A salt under which no part has the hash of another one near it. -/
def Names (linkMdu : Nat) (encryptedBuf : Bytes) (salt : RandomHash) : Prop :=
  ∃ parts, guardedParts (collisionGuardSize linkMdu) salt [] (cutParts encryptedBuf linkMdu) = some parts

instance (linkMdu : Nat) (encryptedBuf : Bytes) (salt : RandomHash) :
    Decidable (Names linkMdu encryptedBuf salt) :=
  decidable_of_iff _ Option.isSome_iff_exists

/-- A resource whose names all go with its data, its salt and its parts. -/
structure Resource.Consistent (r : Resource) (data encryptedBuf : Bytes) : Prop where
  original : r.info.originalHash = r.info.hash
  salted : r.info.hash = Hash.generate (data ++ r.info.randomHash.toBytes)
  named : ∀ part ∈ r.parts, part.mapHash = mapHashOf part.data r.info.randomHash
  listed : r.hashmap = r.parts.map (·.mapHash)
  distinct : ∀ i j first second, i < j → j ≤ i + collisionGuardSize r.info.sdu →
    r.parts[i]? = some first → r.parts[j]? = some second → first.mapHash ≠ second.mapHash
  whole : (r.parts.map (·.data)).flatten = encryptedBuf

/-- The salt that is settled on is the first one drawn that names all parts. -/
theorem nameParts_settled {linkMdu : Nat} {encryptedBuf : Bytes} {salts : List RandomHash}
    {randomHash : RandomHash} {parts : List ResourcePart}
    (named : nameParts (collisionGuardSize linkMdu) (cutParts encryptedBuf linkMdu) salts =
      some (randomHash, parts)) :
    salts.find? (Names linkMdu encryptedBuf ·) = some randomHash := by
  -- Salts are tried in the order they are drawn.
  induction salts with
  | nil => cases named
  | cons salt salts ih =>
    unfold nameParts at named
    split at named
    · rename_i settled found
      -- The first salt that names all parts is kept.
      obtain ⟨rfl, -⟩ := Prod.mk.inj (Option.some.inj named)
      rw [List.find?_cons_of_pos]
      exact decide_eq_true ⟨settled, found⟩
    · rename_i collided
      -- After a collision the next one is tried.
      rw [List.find?_cons_of_neg]
      · exact ih named
      · simp [Names, collided]

/-- All but the original hash of a resource goes with its data, its salt and its parts. -/
theorem Resource.consistent_outgoing_iff {firstRandomHash randomHash : RandomHash}
    {data encryptedBuf : Bytes} {parts : List ResourcePart} {linkMdu : Nat} {compressed : Bool}
    {requestId : Option Bytes} {isResponse : Bool} {now : Instant} (positive : linkMdu ≠ 0)
    (guarded : guardedParts (collisionGuardSize linkMdu) randomHash [] (cutParts encryptedBuf linkMdu) =
      some parts) :
    (Resource.outgoing firstRandomHash randomHash data encryptedBuf parts linkMdu compressed requestId
      isResponse now).Consistent data encryptedBuf ↔
        Hash.generate (data ++ firstRandomHash.toBytes) = Hash.generate (data ++ randomHash.toBytes) := by
  -- Every other conjunct holds of any guarded resource, so only the original hash is left to compare.
  constructor
  · exact fun consistent => consistent.original
  · intro same
    have shape := guardedParts_parts guarded
    refine ⟨same, rfl, ?_, rfl, ?_, ?_⟩
    · intro part member
      rw [show (Resource.outgoing ..).parts = parts from rfl, shape] at member
      obtain ⟨slice, -, rfl⟩ := List.mem_map.mp member
      rfl
    · intro i j first second order near here there
      -- The guard keeps near parts apart.
      exact guardedParts_distinct guarded order near here there
    · show (parts.map (·.data)).flatten = encryptedBuf
      -- The parts are the slices that the stream was cut into.
      rw [shape, List.map_map]
      exact (congrArg List.flatten (List.map_id _)).trans (cutParts_flatten positive)

/--
An outgoing resource is named consistently exactly when the first salt that was drawn names its parts
without a collision; after a collision the original hash stays that of the first salt, which is another
one unless SHA-256 collides.
-/
theorem resource_consistent_iff (bzip2 : Bzip2) (draws : Draws) (data : Bytes) (linkMdu : Nat)
    (encrypt : Cipher) (requestId : Option Bytes) (isResponse autoCompress : Bool) (now : Instant)
    (r : Resource)
    (built : Resource.new bzip2 draws data linkMdu encrypt requestId isResponse autoCompress now =
      .ok (some (.ok r))) :
    ∃ payload compressed encryptedBuf, choosePayload bzip2 data autoCompress = .ok (payload, compressed) ∧
      encrypt.run (draws.inlineRandom.toBytes ++ payload) = .ok encryptedBuf ∧
      (r.Consistent data encryptedBuf ↔ Names linkMdu encryptedBuf draws.randomHash ∨
        ∃ salt, draws.retries.find? (Names linkMdu encryptedBuf ·) = some salt ∧
          Hash.generate (data ++ draws.randomHash.toBytes) = Hash.generate (data ++ salt.toBytes)) := by
  obtain ⟨payload, compressed, encryptedBuf, randomHash, parts, chosen, encrypted, positive, -, -, named,
    rfl⟩ := Resource.new_attempts built
  refine ⟨payload, compressed, encryptedBuf, chosen, encrypted, ?_⟩
  rw [Resource.consistent_outgoing_iff positive (nameParts_guarded named)]
  have settled := nameParts_settled named
  by_cases first : Names linkMdu encryptedBuf draws.randomHash
  · -- Without a collision the first salt is the last one.
    simp only [List.find?_cons, first, decide_true, Option.some.injEq] at settled
    subst settled
    exact iff_of_true rfl (.inl first)
  · -- After one the salt is the first among the retries, and only its digest can make up for it.
    simp only [List.find?_cons, first, decide_false] at settled
    constructor
    · exact fun same => .inr ⟨randomHash, settled, same⟩
    · rintro (names | ⟨salt, found, same⟩)
      · exact absurd names first
      · obtain rfl := Option.some.inj (settled.symm.trans found)
        exact same

/-- Some data whose two parts have the same hash under the salt of zeros. -/
private def collidingData : Bytes := [0, 1, 173, 240, 1, 0, 0, 0, 0, 0, 1, 108]

/-- A construction that finishes with a resource that passes a test. -/
private def makes (outcome : Outcome (Option (Except RnsError Resource))) (test : Resource → Bool) : Bool :=
  passes outcome fun
    | some (.ok r) => test r
    | _ => false

/-- The resource it finishes with. -/
private theorem exists_of_makes {outcome : Outcome (Option (Except RnsError Resource))}
    {test : Resource → Bool} (made : makes outcome test = true) :
    ∃ r, outcome = .ok (some (.ok r)) ∧ test r = true := by
  -- A resource that passes the test is in particular a resource that was made.
  obtain ⟨value, finished, tested⟩ := exists_of_passes made
  split at tested
  · exact ⟨_, finished, tested⟩
  · cases tested

/-- A resource whose parts are told apart at once is named consistently. -/
theorem resource_consistent_iff_distinct : ∃ r,
    Resource.new storeBzip2 ⟨⟨0, 0, 0, 1⟩, .zero, []⟩ collidingData 8 copyCipher none false false 0 =
      .ok (some (.ok r)) ∧ r.Consistent collidingData (FourBytes.zero.toBytes ++ collidingData) := by
  -- The salt that ends with a one tells both parts apart.
  have made : makes (Resource.new storeBzip2 ⟨⟨0, 0, 0, 1⟩, .zero, []⟩ collidingData 8 copyCipher none
      false false 0) (fun _ => true) = true := by
    decide +kernel
  obtain ⟨r, built, -⟩ := exists_of_makes made
  obtain ⟨payload, compressed, encryptedBuf, chosen, encrypted, consistent⟩ :=
    resource_consistent_iff _ _ _ _ _ _ _ _ _ r built
  -- Nothing is compressed, and the cipher copies.
  obtain ⟨rfl, -⟩ := Prod.mk.inj (Except.ok.inj chosen)
  rw [copyCipher_run] at encrypted
  obtain rfl := Except.ok.inj encrypted
  have names : Names 8 (FourBytes.zero.toBytes ++ collidingData) ⟨0, 0, 0, 1⟩ := by decide +kernel
  exact ⟨r, built, consistent.mpr (.inl names)⟩

/-- After a collision of two parts the original hash is not the hash. -/
theorem original_hash_stale : ¬ ∀ (bzip2 : Bzip2) (draws : Draws) (data : Bytes) (linkMdu : Nat)
    (encrypt : Cipher) (requestId : Option Bytes) (isResponse autoCompress : Bool) (now : Instant)
    (r : Resource), 0 < linkMdu →
      Resource.new bzip2 draws data linkMdu encrypt requestId isResponse autoCompress now =
        .ok (some (.ok r)) → r.info.originalHash = r.info.hash := by
  intro consistent
  -- The salt of zeros gives both parts one hash, and the next one does not.
  have made : makes (Resource.new storeBzip2 ⟨.zero, .zero, [⟨0, 0, 0, 1⟩]⟩ collidingData 8 copyCipher none
      false false 0) (fun r => r.info.originalHash ≠ r.info.hash) = true := by
    decide +kernel
  obtain ⟨r, built, stale⟩ := exists_of_makes made
  exact of_decide_eq_true stale (consistent _ _ _ _ _ _ _ _ _ r (by decide) built)

end Reticulum
