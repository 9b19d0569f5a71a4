import Mathlib.Data.List.Nodup
import ReticulumSdk.Link.State
import ReticulumSdk.Resource.AdvertisementLaws

/-! How long a packed advertisement is, and when a link has room for it. -/

namespace Reticulum

open Resource Msgpack

/-- A number of 32 bits takes five bytes at most. -/
theorem Msgpack.numberLength_le_five {number : Nat} (small : number < 2 ^ 32) : numberLength number ≤ 5 := by
  -- A marker and at most four bytes of digits.
  unfold numberLength numberWidth
  split
  · decide
  · split
    · decide
    · split
      · decide
      · decide

/-- Any number takes nine bytes at most. -/
theorem Msgpack.numberLength_le_nine (number : Nat) : numberLength number ≤ 9 := by
  -- A marker and at most eight bytes of digits.
  unfold numberLength
  split
  · decide
  · rcases numberWidth_cases number with width | width | width | width <;> omega

/-- A length is written in four bytes at most, and in one at least. -/
theorem Msgpack.lengthWidth_bounds (length : Nat) :
    1 ≤ numberWidth (counted length) ∧ numberWidth (counted length) ≤ 4 := by
  -- The length field is the shortest that counts the bytes, and it never takes the eight-byte form.
  have widths := numberWidth_cases (counted length)
  have narrow := numberWidth_counted length
  omega

/-- The bytes of an advertisement with so many hashes of a resource: those of fixed fields, and the others. -/
def Resource.advertisedLength (r : Resource) (hashes : Nat) : Nat :=
  101 + numberLength r.info.size + numberLength r.info.totalSize + numberLength r.info.totalParts +
    numberWidth (counted (hashes * MAPHASH_LEN)) + hashes * MAPHASH_LEN +
    match r.info.requestId with
    | none => 1
    | some requestId => binaryLength requestId.length

/-- The hashes of the fullest segment, which is the first. -/
def Resource.mostHashes (r : Resource) (linkMdu : Nat) : Nat := min (hashmapMaxLen linkMdu) r.info.totalParts

/-- The flags are written in one byte. -/
private theorem flags_length (r : Resource) :
    numberLength (ResourceAdvertisement.fromResource r).flags.toNat = 1 := by
  -- Six flags leave the two highest bits clear.
  have small : (ResourceAdvertisement.fromResource r).flags.toNat < 2 ^ 7 := by
    simp only [ResourceAdvertisement.fromResource]
    generalize r.info.encrypted = encrypted
    generalize r.info.compressed = compressed
    generalize r.info.split = split
    generalize r.info.requestId.isSome = asked
    generalize r.info.isResponse = response
    generalize r.info.hasMetadata = metadata
    revert encrypted compressed split asked response metadata
    decide
  rw [numberLength, if_pos small]

/-- A packed advertisement is as long as its fields are. -/
theorem Resource.dictLength_eq {r : Resource} (advertisable : r.Advertisable)
    (once : r.info.segmentIndex = 1 ∧ r.info.totalSegments = 1) {hashmapSeg : Bytes} {hashes : Nat}
    (held : hashmapSeg.length = hashes * MAPHASH_LEN) :
    dictLength ((ResourceAdvertisement.fromResource r).dict hashmapSeg) = r.advertisedLength hashes := by
  have sized := advertisable.sized
  have key : ∀ key : AdvertisementKey, plainLength key.toValue = 2 := by
    intro key
    rw [AdvertisementKey.toValue, plainLength, key.text_length]
  -- Keys and flags take one form only, and so do the digests and the salt.
  have flags := flags_length r
  have one : numberLength 1 = 1 := rfl
  have quad : numberWidth (counted 4) = 1 := rfl
  have size : HASH_SIZE = 32 := rfl
  have digest : numberWidth (counted 32) = 1 := rfl
  simp only [dictLength, ResourceAdvertisement.dict, entriesLength, key]
  simp only [plainLength, asSigned_of_lt sized.transferSize, asSigned_of_lt sized.dataSize,
    asSigned_of_lt sized.numParts, asSigned_of_lt sized.segmentIndex, asSigned_of_lt sized.totalSegments,
    Int.toNat_natCast, flags, binaryLength, held, FourBytes.toBytes_length, Hash.length_eq, size, digest,
    quad]
  simp only [ResourceAdvertisement.fromResource, once.1, once.2, one, Resource.advertisedLength]
  -- Only the sum is left, whatever the lengths of the numbers are.
  generalize numberLength r.info.size = transferSize
  generalize numberLength r.info.totalSize = dataSize
  generalize numberLength r.info.totalParts = numParts
  generalize numberWidth (counted (hashes * MAPHASH_LEN)) = width
  generalize hashes * MAPHASH_LEN = bytes
  clear sized advertisable key flags one quad digest size held once
  cases r.info.requestId with
  | none =>
    simp only [Option.map_none, Option.getD_none]
    omega
  | some requestId =>
    simp only [Option.map_some, Option.getD_some, binaryLength]
    generalize numberWidth (counted requestId.length) = idWidth
    omega

/-- The bounds of a segment enclose no more hashes than one segment has, or they overflow. -/
theorem ResourceAdvertisement.segmentBounds_cases (profile : Profile) (numParts : Nat)
    {segment linkMdu : Nat} (machine : segment < usizeRange) (room : hashmapMaxLen linkMdu ≠ 0) :
    (∃ start stop, segmentBounds profile numParts segment linkMdu = .ok (start, stop) ∧ stop ≤ numParts ∧
      stop - start ≤ hashmapMaxLen linkMdu) ∨
    (usizeRange ≤ (segment + 1) * hashmapMaxLen linkMdu ∧
      segmentBounds profile numParts segment linkMdu = .error .arithmeticOverflow) := by
  by_cases range : (segment + 1) * hashmapMaxLen linkMdu < usizeRange
  · -- In range the bounds are those of the segment.
    refine .inl ⟨_, _, segmentBounds_ok room range, Nat.min_le_right _ _, ?_⟩
    rw [Nat.succ_mul]
    omega
  · have large := Nat.le_of_not_lt range
    cases profile with
    | debug =>
      -- One of the three operations leaves the range, and the build checks each.
      refine .inr ⟨large, ?_⟩
      by_cases start : segment * hashmapMaxLen linkMdu < usizeRange
      · by_cases next : segment + 1 < usizeRange
        · simp only [segmentBounds, Profile.mul_ok _ start, Profile.add_ok _ next, Bind.bind, Except.bind]
          rw [Profile.mul, Profile.fit_overflows large]
        · simp only [segmentBounds, Profile.mul_ok _ start, Bind.bind, Except.bind]
          rw [Profile.add, Profile.fit_overflows (Nat.le_of_not_lt next)]
      · simp only [segmentBounds, Bind.bind, Except.bind]
        rw [Profile.mul, Profile.fit_overflows (Nat.le_of_not_lt start)]
    | release =>
      refine .inl ⟨segment * hashmapMaxLen linkMdu % usizeRange,
        min ((segment + 1) % usizeRange * hashmapMaxLen linkMdu % usizeRange) numParts, ?_,
        Nat.min_le_right _ _, ?_⟩
      · simp only [segmentBounds, Profile.mul, Profile.add, Profile.fit_wraps, Bind.bind, Except.bind, pure,
          Except.pure]
      · -- Wrapped bounds are no further apart, or they are crossed.
        rcases Nat.lt_or_eq_of_le (show segment + 1 ≤ usizeRange from machine) with next | last
        · have apart : (segment + 1) * hashmapMaxLen linkMdu % usizeRange ≤
              segment * hashmapMaxLen linkMdu % usizeRange + hashmapMaxLen linkMdu := by
            rw [Nat.succ_mul, ← Nat.mod_add_mod]
            exact Nat.mod_le _ _
          rw [Nat.mod_eq_of_lt next]
          omega
        · -- The last number of the machine is followed by zero, so that its segment ends at the start.
          rw [last, Nat.mod_self, Nat.zero_mul, Nat.zero_mod]
          omega

namespace Resource

variable {rmpv : Codec} {profile : Profile} {r : Resource} {linkMdu segment : Nat}

/-- A segment with bounds is packed into as many bytes as it has hashes for. -/
theorem Advertisable.packed (advertisable : r.Advertisable) (lawful : rmpv.Lawful)
    (once : r.info.segmentIndex = 1 ∧ r.info.totalSegments = 1) {start stop : Nat}
    (bounds : ResourceAdvertisement.segmentBounds profile r.info.totalParts segment linkMdu =
      .ok (start, stop)) (inside : stop ≤ r.info.totalParts) :
    ∃ bytes, (ResourceAdvertisement.fromResource r).pack rmpv profile segment linkMdu = .ok (.ok bytes) ∧
      bytes.length = r.advertisedLength (stop - start) := by
  -- The dictionary has the length that its fields say, and the segment gives the hash map its own.
  rw [advertisable.counted] at inside
  obtain ⟨bytes, written, length, -⟩ := advertisable.sized.written lawful
    ((((r.parts.map (·.mapHash)).drop start).take (stop - start)).flatMap FourBytes.toBytes)
  refine ⟨bytes, ?_, ?_⟩
  · rw [advertisable.pack_eq bounds inside, written]
  · rw [length, dictLength_eq advertisable once]
    rw [FourBytes.length_flatMap, List.length_take, List.length_drop, List.length_map,
      Nat.min_eq_left (Nat.sub_le_sub_right inside start)]

/-- More hashes do not make an advertisement shorter. -/
theorem advertisedLength_mono (r : Resource) {fewer more : Nat} (order : fewer ≤ more) :
    r.advertisedLength fewer ≤ r.advertisedLength more := by
  rcases Nat.lt_or_eq_of_le order with less | same
  · -- A hash more takes as much as the widest length could save.
    have widest := (lengthWidth_bounds (fewer * MAPHASH_LEN)).2
    have narrowest := (lengthWidth_bounds (more * MAPHASH_LEN)).1
    have longer : fewer * MAPHASH_LEN + 4 ≤ more * MAPHASH_LEN := by
      unfold MAPHASH_LEN
      omega
    unfold advertisedLength
    generalize numberWidth (counted (fewer * MAPHASH_LEN)) = before at widest ⊢
    generalize numberWidth (counted (more * MAPHASH_LEN)) = after at narrowest ⊢
    omega
  · exact Nat.le_of_eq (congrArg r.advertisedLength same)

/-- Every packed segment fits, and a live link whose cipher works takes it; bounds that overflow panic. -/
def AdvertisementsFit (rmpv : Codec) (profile : Profile) (r : Resource) (linkMdu : Nat) : Prop :=
  ∀ segment < usizeRange,
    (∃ bytes, (ResourceAdvertisement.fromResource r).pack rmpv profile segment linkMdu = .ok (.ok bytes) ∧
      bytes.length ≤ linkMdu ∧
      ∀ (link : Link) (encrypt : Cipher) (token : Bytes), link.mdu = linkMdu →
        link.status = .active ∨ link.status = .stale → encrypt.run bytes = .ok token →
          ∃ packet, link.resourcePacket encrypt .resourceAdvertisement bytes = .ok packet) ∨
    (usizeRange ≤ (segment + 1) * hashmapMaxLen linkMdu ∧
      (ResourceAdvertisement.fromResource r).pack rmpv profile segment linkMdu = .error .arithmeticOverflow)

/-- No request id, or room for one beside the numbers and the hashes of the fullest segment. -/
def AdvertisementRoom (r : Resource) (linkMdu : Nat) : Prop :=
  r.info.requestId = none ∨
    119 + numberLength r.info.size + numberLength r.info.totalSize + numberLength r.info.totalParts +
      numberWidth (counted (r.mostHashes linkMdu * MAPHASH_LEN)) + r.mostHashes linkMdu * MAPHASH_LEN ≤ linkMdu

/-- Without a request id the overhead that is set aside is enough. -/
theorem advertisedLength_le (r : Resource) (large : 138 ≤ linkMdu) (small : r.info.totalSize < 2 ^ 32)
    (anonymous : r.info.requestId = none) : r.advertisedLength (r.mostHashes linkMdu) ≤ linkMdu := by
  -- Every field is at its largest, and the hash map takes the room that the overhead leaves.
  have hashes : r.mostHashes linkMdu * MAPHASH_LEN ≤ linkMdu - ADV_OVERHEAD := by
    refine Nat.le_trans (Nat.mul_le_mul_right _ (Nat.min_le_left _ _)) ?_
    exact Nat.div_mul_le_self _ _
  have size := numberLength_le_nine r.info.size
  have data := numberLength_le_five small
  have parts := numberLength_le_nine r.info.totalParts
  have header := (lengthWidth_bounds (r.mostHashes linkMdu * MAPHASH_LEN)).2
  unfold ADV_OVERHEAD at hashes
  simp only [advertisedLength, anonymous]
  -- The widths are left as unknowns, and their bounds add up.
  generalize numberLength r.info.size = transferSize at size ⊢
  generalize numberLength r.info.totalSize = dataSize at data ⊢
  generalize numberLength r.info.totalParts = numParts at parts ⊢
  generalize numberWidth (counted (r.mostHashes linkMdu * MAPHASH_LEN)) = width at header ⊢
  generalize r.mostHashes linkMdu * MAPHASH_LEN = bytes at hashes ⊢
  clear small
  omega

/-- There is room exactly when the fullest segment fits the link. -/
theorem advertisementRoom_iff (r : Resource) (large : 138 ≤ linkMdu) (small : r.info.totalSize < 2 ^ 32)
    (id : ∀ bytes, r.info.requestId = some bytes → bytes.length = ADDRESS_HASH_SIZE) :
    r.AdvertisementRoom linkMdu ↔ r.advertisedLength (r.mostHashes linkMdu) ≤ linkMdu := by
  cases asked : r.info.requestId with
  | none =>
    -- Without an id both hold.
    exact ⟨fun _ => r.advertisedLength_le large small asked, fun _ => .inl asked⟩
  | some requestId =>
    -- An id of sixteen bytes takes eighteen with its header, and the two sums are the same.
    have width := id requestId asked
    have sixteen : binaryLength ADDRESS_HASH_SIZE = 18 := rfl
    simp only [AdvertisementRoom, advertisedLength, asked, width, sixteen, reduceCtorEq, false_or]
    constructor
    · intro enough
      omega
    · intro fits
      omega

end Resource

/--
Every segment of an outgoing resource's advertisement fits a link exactly when there is no request id or the
numbers leave room for it: the overhead that is set aside covers the id only while they are short.
-/
theorem advertisements_fit_iff (rmpv : Codec) (lawful : rmpv.Lawful) (profile : Profile) (bzip2 : Bzip2)
    (draws : Draws) (data : Bytes) (newMdu : Nat) (encrypt : Cipher) (requestId : Option Bytes)
    (isResponse autoCompress : Bool) (now : Instant) (r : Resource)
    (built : Resource.new bzip2 draws data newMdu encrypt requestId isResponse autoCompress now =
      .ok (some (.ok r)))
    (small : data.length < 2 ^ 32) (id : ∀ bytes, requestId = some bytes → bytes.length = ADDRESS_HASH_SIZE)
    (linkMdu : Nat) (large : 138 ≤ linkMdu) (machine : linkMdu < usizeRange) :
    r.AdvertisementsFit rmpv profile linkMdu ↔ r.AdvertisementRoom linkMdu := by
  have nonempty : requestId ≠ some [] := by
    intro same
    exact absurd (id [] same) (by decide)
  have memory : data.length < isizeRange := Nat.lt_trans small (by decide)
  have advertisable := Resource.new_advertisable built memory nonempty
  have fields : (r.info.segmentIndex = 1 ∧ r.info.totalSegments = 1) ∧ r.info.requestId = requestId ∧
      r.info.totalSize = data.length := by
    obtain ⟨payload, compressed, encryptedBuf, randomHash, parts, -, -, -, -, -, -, rfl⟩ :=
      Resource.new_cases built
    exact ⟨⟨rfl, rfl⟩, rfl, rfl⟩
  obtain ⟨once, asked, size⟩ := fields
  have room : hashmapMaxLen linkMdu ≠ 0 := by
    unfold hashmapMaxLen ADV_OVERHEAD MAPHASH_LEN
    omega
  rw [r.advertisementRoom_iff large (size ▸ small) fun bytes same => id bytes (asked.symm.trans same)]
  constructor
  · intro fit
    -- The first segment holds as many hashes as any, and its bounds do not overflow.
    have first : (0 + 1) * hashmapMaxLen linkMdu < usizeRange := by
      unfold hashmapMaxLen
      rw [Nat.zero_add, Nat.one_mul]
      exact Nat.lt_of_le_of_lt (Nat.le_trans (Nat.div_le_self _ _) (Nat.sub_le _ _)) machine
    have bounds := @ResourceAdvertisement.segmentBounds_ok profile r.info.totalParts 0 linkMdu room first
    obtain ⟨bytes, packed, length⟩ := advertisable.packed lawful once bounds (Nat.min_le_right _ _)
    obtain ⟨out, same, fits, -⟩ | ⟨overflow, -⟩ := fit 0 (by decide)
    · obtain rfl := Except.ok.inj (Except.ok.inj (packed.symm.trans same))
      rw [Nat.zero_mul, Nat.sub_zero, Nat.zero_add, Nat.one_mul] at length
      rw [length] at fits
      exact fits
    · exact absurd first (Nat.not_lt.mpr overflow)
  · intro longest segment inside
    obtain ⟨start, stop, bounds, inside, apart⟩ | ⟨overflow, bounds⟩ :=
      ResourceAdvertisement.segmentBounds_cases profile r.info.totalParts inside room
    · -- No segment is longer than the fullest one.
      obtain ⟨bytes, packed, length⟩ := advertisable.packed lawful once bounds inside
      have fits : bytes.length ≤ linkMdu := by
        rw [length]
        refine Nat.le_trans (r.advertisedLength_mono ?_) longest
        unfold Resource.mostHashes
        omega
      refine .inl ⟨bytes, packed, fits, fun link encrypt token mdu live encrypted => ?_⟩
      exact Link.encryptedDataPacket_ok_iff.mpr ⟨live, by rw [mdu]; exact fits, token, encrypted⟩
    · -- Bounds that overflow stop the packing before anything is written.
      refine .inr ⟨overflow, ?_⟩
      have total : (ResourceAdvertisement.fromResource r).numParts = r.info.totalParts := rfl
      simp only [ResourceAdvertisement.pack, total, bounds, Bind.bind, Except.bind]

/-- A short request is advertised within the link. -/
theorem advertisements_fit_iff_short :
    (onePartResource (some (List.replicate 16 1))).AdvertisementsFit plainCodec .release 400 := by
  -- An answer with its link id fits as soon as its room does, which is a sum to evaluate.
  have width : ∀ bytes, some (List.replicate 16 (1 : UInt8)) = some bytes →
      bytes.length = ADDRESS_HASH_SIZE := by
    intro bytes same
    obtain rfl := Option.some.inj same
    rfl
  refine (advertisements_fit_iff plainCodec plainCodec_lawful .release _ _ _ _ _ _ _ _ _ _
    (new_onePartResource _) (by rw [List.length_replicate]; decide) width 400 (by decide)
    (by decide)).mpr ?_
  exact .inr (by decide +kernel)

/-- So many slices, each one different from the ones near it. -/
private def cycle (count : Nat) : List Bytes := (List.range count).map fun k => sliceOf (k % 154)

/-- The slices the cycle goes through have different hashes. -/
private theorem sliceOf_distinct : ((List.range 154).map fun k => mapHashOf (sliceOf k) .zero).Nodup := by
  simp only [mapHashOf_sliceOf]
  decide +kernel

/-- A slice comes back only after the guard has forgotten it. -/
private theorem guardedParts_cycle (count : Nat) :
    guardedParts (collisionGuardSize 146) .zero [] (cycle count) = some ((cycle count).map fun data =>
      { data := data, mapHash := mapHashOf data .zero, sent := false }) := by
  refine guardedParts_of_distinctWithin (fun i j item order near here there => ?_) (Nat.zero_le _)
  have reach : collisionGuardSize 146 = 153 := rfl
  -- The hash at a place is that of the slice the cycle has come to.
  have place : ∀ k, ([] ++ (cycle count).map (mapHashOf · .zero))[k]? = some item →
      mapHashOf (sliceOf (k % 154)) .zero = item := by
    intro k found
    obtain ⟨inside, same⟩ := List.getElem?_eq_some_iff.mp found
    simpa [cycle] using same
  have same : mapHashOf (sliceOf (i % 154)) .zero = mapHashOf (sliceOf (j % 154)) .zero :=
    (place i here).trans (place j there).symm
  -- Equal hashes would be those of one slice, which comes again only after 154 parts.
  have equal := List.inj_on_of_nodup_map sliceOf_distinct
    (List.mem_range.mpr (Nat.mod_lt i (by decide))) (List.mem_range.mpr (Nat.mod_lt j (by decide))) same
  omega

/-- Nine and a half megabytes of slices, without the four bytes that are put in front of them. -/
private def longRequest : Bytes := (cycle 65536).flatten.drop 4

/-- The numbers a resource made of full slices is advertised with. -/
private theorem advertised_blocks {blocks : List Bytes} {linkMdu : Nat} {parts : List ResourcePart}
    {data : Bytes} {requestId : Option Bytes} (stream : FourBytes.zero.toBytes ++ data = blocks.flatten)
    (positive : linkMdu ≠ 0) (full : ∀ block ∈ blocks, block.length = linkMdu)
    (small : blocks.length * 32 < isizeRange ∧ blocks.length * linkMdu < isizeRange)
    (named : guardedParts (collisionGuardSize linkMdu) .zero [] blocks = some parts) : ∃ r,
    Resource.new storeBzip2 ⟨.zero, .zero, []⟩ data linkMdu copyCipher requestId false false 0 =
      .ok (some (.ok r)) ∧
    r.info.size = blocks.flatten.length ∧ r.info.totalSize = data.length ∧
    r.info.totalParts = blocks.length ∧ r.info.requestId = requestId ∧ r.info.segmentIndex = 1 ∧
    r.info.totalSegments = 1 := by
  -- The fields are read off the resource that the blocks make.
  refine ⟨_, new_of_blocks stream positive full small named, rfl, rfl, ?_, rfl, rfl, rfl⟩
  show (cutParts blocks.flatten linkMdu).length = blocks.length
  rw [cutParts_blocks positive full]

/-- The numbers of the resource that carries it. -/
private theorem new_longRequest : ∃ r,
    Resource.new storeBzip2 ⟨.zero, .zero, []⟩ longRequest 146 copyCipher (some (List.replicate 16 1)) false
      false 0 = .ok (some (.ok r)) ∧
    r.info.size = 9568256 ∧ r.info.totalSize = 9568252 ∧ r.info.totalParts = 65536 ∧
    r.info.requestId = some (List.replicate 16 1) ∧ r.info.segmentIndex = 1 ∧ r.info.totalSegments = 1 ∧
    longRequest.length = 9568252 := by
  have full : ∀ block ∈ cycle 65536, block.length = 146 := by
    intro block member
    obtain ⟨k, -, rfl⟩ := List.mem_map.mp member
    simp [sliceOf]
  have count : (cycle 65536).length = 65536 := by rw [cycle, List.length_map, List.length_range]
  -- Every slice has 146 bytes, and there are 65536.
  have length : (cycle 65536).flatten.length = 9568256 := by
    have product : (cycle 65536).flatten.length = (cycle 65536).length * 146 := by
      rw [List.length_flatten, List.map_congr_left full]
      simp
    rw [product, count]
  -- The stream starts with the random bytes, which are zeros.
  have stream : FourBytes.zero.toBytes ++ longRequest = (cycle 65536).flatten := by
    have start : (cycle 65536).flatten.take 4 = FourBytes.zero.toBytes := by
      rw [cycle, List.range_succ_eq_map, List.map_cons, List.flatten_cons,
        List.take_append_of_le_length (by simp [sliceOf])]
      rfl
    rw [longRequest, ← start, List.take_append_drop]
  have dataLength : longRequest.length = 9568252 := by rw [longRequest, List.length_drop, length]
  obtain ⟨r, built, size, totalSize, totalParts, rest⟩ := @advertised_blocks (cycle 65536) 146 _
    longRequest (some (List.replicate 16 1)) stream (by decide) full (by rw [count]; decide)
    (guardedParts_cycle 65536)
  exact ⟨r, built, size.trans length, totalSize.trans dataLength, totalParts.trans count, rest.1, rest.2.1,
    rest.2.2, dataLength⟩

/-- A request of that size is advertised in one byte more than the link has room for. -/
theorem long_request_refused : ∃ r bytes,
    Resource.new storeBzip2 ⟨.zero, .zero, []⟩ longRequest 146 copyCipher (some (List.replicate 16 1)) false
        false 0 = .ok (some (.ok r)) ∧ longRequest.length < 2 ^ 32 ∧
      (ResourceAdvertisement.fromResource r).pack plainCodec .release 0 146 = .ok (.ok bytes) ∧
      bytes.length = 147 := by
  obtain ⟨r, built, size, totalSize, totalParts, requestId, once, total, dataLength⟩ := new_longRequest
  have small : longRequest.length < 2 ^ 32 := by
    rw [dataLength]
    decide
  have advertisable := Resource.new_advertisable built (Nat.lt_trans small (by decide)) (by decide)
  -- On a link of 146 bytes a segment has three hashes.
  have bounds : ResourceAdvertisement.segmentBounds .release r.info.totalParts 0 146 = .ok (0, 3) := by
    rw [totalParts]
    decide
  obtain ⟨bytes, packed, length⟩ := advertisable.packed plainCodec_lawful ⟨once, total⟩ bounds
    (by rw [totalParts]; decide)
  refine ⟨r, bytes, built, small, packed, ?_⟩
  -- Three hashes take one byte for their length, and each of the numbers takes five bytes.
  rw [length, Resource.advertisedLength, size, totalSize, totalParts, requestId]
  decide

end Reticulum
