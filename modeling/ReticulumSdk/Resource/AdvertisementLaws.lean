import ReticulumSdk.Resource.Advertisement

/-! What is packed into an advertisement is read from it again, one segment of the hashmap at a time. -/

namespace Reticulum

open Resource Msgpack

/-- A number that a signed one can hold keeps its value. -/
theorem asSigned_of_lt {number : Nat} (small : number < isizeRange) : asSigned number = number := by
  -- Below half the range the signed reading of a word is the word.
  unfold asSigned
  rw [Int.bmod_eq_of_le]
  · unfold usizeRange
    omega
  · unfold usizeRange isizeRange at *
    omega

/-- It is read from a value as it is. -/
theorem asI64_natCast {number : Nat} (small : number < isizeRange) :
    (Value.integer (number : Int)).asI64 = some (number : Int) := by
  -- Both bounds of the signed read hold.
  rw [Value.asI64, if_pos]
  constructor
  · omega
  · exact_mod_cast small

/-- A number that was written is read from its value. -/
theorem asUsize_written {number : Nat} (small : number < isizeRange) :
    asUsize ((Value.integer (asSigned number)).asI64.getD 0) = number := by
  -- The two casts undo each other below half the range.
  have range : isizeRange ≤ usizeRange := by decide
  rw [asSigned_of_lt small, asI64_natCast small, Option.getD_some,
    asUsize_natCast (Nat.lt_of_lt_of_le small range)]

/-- A byte that was written is read from its value. -/
theorem asU8_written (byte : UInt8) :
    asU8 ((Value.integer (byte.toNat : Int)).asI64.getD 0) = byte := by
  -- A byte is far below the signed bound, so the cast back loses nothing.
  have small := byte.toNat_lt
  have range : (256 : Nat) ≤ isizeRange := by decide
  rw [asI64_natCast (Nat.lt_of_lt_of_le small range), Option.getD_some, asU8]
  have kept : ((byte.toNat : Int) % 256).toNat = byte.toNat := by omega
  rw [kept, UInt8.ofNat_toNat]

/-- A digest is copied whole. -/
@[simp] theorem Hash.ofSlice_bytes (hash : Hash) : Hash.ofSlice hash.bytes = hash := by
  -- A hash is already at full width, so nothing is cut and nothing is padded.
  obtain ⟨bytes, width⟩ := hash
  have none : HASH_SIZE - bytes.length = 0 := by omega
  simp [Hash.ofSlice, none, List.take_of_length_le (Nat.le_of_eq width)]

/-- Four bytes are copied whole. -/
@[simp] theorem FourBytes.overwrite_toBytes (quad other : FourBytes) :
    quad.overwrite other.toBytes = other := rfl

/-- The bytes of four-byte arrays, four for each. -/
theorem FourBytes.length_flatMap (quads : List FourBytes) :
    (quads.flatMap toBytes).length = quads.length * MAPHASH_LEN := by
  -- Each quad adds its own four bytes.
  induction quads with
  | nil => rfl
  | cons quad rest ih =>
    rw [List.flatMap_cons, List.length_append, ih, toBytes_length, List.length_cons, Nat.succ_mul,
      Nat.add_comm]
    rfl

/-- An array of a row is cut out at its place. -/
theorem FourBytes.slice_flatMap {quads : List FourBytes} {i : Nat} (inside : i < quads.length) :
    slice (quads.flatMap toBytes) (i * MAPHASH_LEN) (i * MAPHASH_LEN + MAPHASH_LEN) =
      .ok quads[i].toBytes := by
  have length := length_flatMap quads
  -- Its own four bytes are still inside.
  have before : i * MAPHASH_LEN + MAPHASH_LEN ≤ quads.length * MAPHASH_LEN := by
    rw [← Nat.succ_mul]
    exact Nat.mul_le_mul_right _ inside
  rw [slice_ok (Nat.le_add_right _ _) (by rw [length]; exact before)]
  congr 1
  -- The arrays in front of it take the bytes in front of it.
  have split : quads.take i ++ quads[i] :: quads.drop (i + 1) = quads := by
    rw [← List.drop_eq_getElem_cons inside, List.take_append_drop]
  have front : ((quads.take i).flatMap toBytes).length = i * MAPHASH_LEN := by
    rw [length_flatMap, List.length_take, Nat.min_eq_left (Nat.le_of_lt inside)]
  conv_lhs => rw [← split]
  rw [List.flatMap_append, List.flatMap_cons, List.drop_take, Nat.add_sub_cancel_left,
    List.drop_left' front]
  exact List.take_left' rfl

/-- The numbers of an advertisement are those of a machine, and its request id is not empty. -/
structure ResourceAdvertisement.Sized (adv : ResourceAdvertisement) : Prop where
  transferSize : adv.transferSize < isizeRange
  dataSize : adv.dataSize < isizeRange
  numParts : adv.numParts < isizeRange
  segmentIndex : adv.segmentIndex < isizeRange
  totalSegments : adv.totalSegments < isizeRange
  requestId : adv.requestId ≠ some []

/-- The bytes of an advertisement are as many as the format counts. -/
structure ResourceAdvertisement.LengthsFit (adv : ResourceAdvertisement) (hashmapSeg : Bytes) : Prop where
  hashmapSeg : hashmapSeg.length < 2 ^ 32
  requestId : ∀ requestId, adv.requestId = some requestId → requestId.length < 2 ^ 32

namespace ResourceAdvertisement

variable {adv : ResourceAdvertisement} {hashmapSeg : Bytes}

/-- An entry under a key is taken by the branch of the key. -/
@[simp] theorem takeEntry_toValue (key : AdvertisementKey) (value : Value) :
    adv.takeEntry (key.toValue, value) = adv.put value key := by
  simp [takeEntry]

/-- Every key with its value. -/
theorem mem_dict {entry : Value × Value} (member : entry ∈ adv.dict hashmapSeg) :
    (∃ key : AdvertisementKey, entry.1 = key.toValue) ∧
      ((∃ number ∈ [adv.transferSize, adv.dataSize, adv.numParts, adv.segmentIndex, adv.totalSegments],
          entry.2 = .integer (asSigned number)) ∨ entry.2 = .integer adv.flags.toNat ∨
        (∃ data ∈ [adv.hash.bytes, adv.randomHash.toBytes, adv.originalHash.bytes, hashmapSeg],
          entry.2 = .binary data) ∨ entry.2 = (adv.requestId.map Value.binary).getD .nil) := by
  -- The eleven entries, each matched with the kind of value it holds.
  simp only [dict, List.mem_cons, List.not_mem_nil, or_false] at member
  rcases member with rfl | rfl | rfl | rfl | rfl | rfl | rfl | rfl | rfl | rfl | rfl <;>
    simp

/-- The dictionary of an advertisement is short, and all its values are plain. -/
theorem Sized.plainDict (sized : adv.Sized) (hashmapSeg : Bytes) : PlainDict (adv.dict hashmapSeg) where
  short := by simp [dict]
  plain := by
    intro entry member
    obtain ⟨⟨key, named⟩, kind⟩ := mem_dict member
    refine ⟨?_, ?_⟩
    · rw [named]
      -- A key is a text of one letter.
      exact ⟨key.asStr_toValue, by rw [key.text_length]; decide⟩
    · rcases kind with ⟨number, member, same⟩ | same | ⟨data, -, same⟩ | same
      · -- The five words keep their value in the signed cast, so they are written as they are.
        rw [same]
        have small : number < isizeRange := by
          simp only [List.mem_cons, List.not_mem_nil, or_false] at member
          rcases member with rfl | rfl | rfl | rfl | rfl
          · exact sized.transferSize
          · exact sized.dataSize
          · exact sized.numParts
          · exact sized.segmentIndex
          · exact sized.totalSegments
        rw [asSigned_of_lt small]
        refine ⟨by omega, ?_⟩
        unfold numberRange
        unfold isizeRange at small
        omega
      · rw [same]
        -- The flags are a byte.
        have small := adv.flags.toNat_lt
        refine ⟨by omega, ?_⟩
        unfold numberRange
        omega
      · rw [same]
        exact trivial
      · rw [same]
        cases adv.requestId <;> exact trivial

/-- Its values can be counted if the hashes of the segment and the request id can. -/
theorem LengthsFit.entries (fits : adv.LengthsFit hashmapSeg) :
    ∀ entry ∈ adv.dict hashmapSeg, LengthFits entry.1 ∧ LengthFits entry.2 := by
  -- Only byte strings have a length to fit, and three of the five have a fixed width.
  intro entry member
  obtain ⟨⟨key, named⟩, kind⟩ := mem_dict member
  refine ⟨by rw [named]; exact trivial, ?_⟩
  rcases kind with ⟨number, -, same⟩ | same | ⟨data, member, same⟩ | same
  · rw [same]
    exact trivial
  · rw [same]
    exact trivial
  · rw [same]
    -- Of the byte strings only the segment's hashes are of any length.
    have widths := adv.hash.length_eq
    have originalWidth := adv.originalHash.length_eq
    simp only [List.mem_cons, List.not_mem_nil, or_false] at member
    show data.length < 2 ^ 32
    rcases member with rfl | rfl | rfl | rfl
    · rw [widths]
      decide
    · rw [FourBytes.toBytes_length]
      decide
    · rw [originalWidth]
      decide
    · exact fits.hashmapSeg
  · rw [same]
    -- The request id is written as bytes if there is one.
    cases asked : adv.requestId with
    | none => exact trivial
    | some requestId => exact fits.requestId requestId asked

/-- The loop over the dictionary of an advertisement sets every field to what was written. -/
theorem Sized.foldl_dict (sized : adv.Sized) (hashmapSeg : Bytes) :
    (adv.dict hashmapSeg).foldl takeEntry empty = { adv with hashmap := hashmapSeg } := by
  -- One field after another; the request id is there, or it was not written.
  simp only [dict, List.foldl_cons, List.foldl_nil, takeEntry_toValue, put, Value.asSlice,
    asUsize_written sized.transferSize, asUsize_written sized.dataSize, asUsize_written sized.numParts,
    asUsize_written sized.segmentIndex, asUsize_written sized.totalSegments, asU8_written,
    Hash.ofSlice_bytes, FourBytes.overwrite_toBytes]
  have id := sized.requestId
  obtain ⟨transferSize, dataSize, numParts, hash, randomHash, originalHash, hashmap, flags, segmentIndex,
    totalSegments, requestId⟩ := adv
  cases requestId with
  | none => rfl
  | some requestId =>
    cases requestId with
    | nil => exact absurd rfl id
    | cons byte rest => rfl

/-- The loop over some places of the hashmap collects the hashes there. -/
theorem packHashes_eq {profile : Profile} {hashes : List MapHash}
    (small : hashes.length * MAPHASH_LEN < usizeRange) {start count : Nat}
    (inside : ∀ i < count, start + i < hashes.length) :
    packHashes profile (hashes.flatMap FourBytes.toBytes) (List.range' start count) =
      .ok (((hashes.drop start).take count).flatMap FourBytes.toBytes) := by
  -- One hash after another, each at its own place.
  induction count generalizing start with
  | zero => rfl
  | succ count ih =>
    have here : start < hashes.length := inside 0 (Nat.succ_pos _)
    -- The place of a hash ends where the next one starts, inside of the map.
    have stop : start * MAPHASH_LEN + MAPHASH_LEN ≤ hashes.length * MAPHASH_LEN := by
      rw [← Nat.succ_mul]
      exact Nat.mul_le_mul_right _ here
    have rest := @ih (start + 1) fun i bound => by
      have later := inside (i + 1) (by omega)
      omega
    rw [List.range'_succ, packHashes, Profile.mul_ok profile (by omega), List.drop_eq_getElem_cons here,
      List.take_succ_cons, List.flatMap_cons]
    simp only [Bind.bind, Except.bind, Profile.add_ok profile (Nat.lt_of_le_of_lt stop small),
      FourBytes.length_flatMap, stop, if_true, FourBytes.slice_flatMap here, rest, pure, Except.pure]

/-- The bounds of a segment that ends inside the machine's range. -/
theorem segmentBounds_ok {profile : Profile} {numParts segment linkMdu : Nat}
    (room : hashmapMaxLen linkMdu ≠ 0) (fits : (segment + 1) * hashmapMaxLen linkMdu < usizeRange) :
    segmentBounds profile numParts segment linkMdu = .ok (segment * hashmapMaxLen linkMdu,
      min ((segment + 1) * hashmapMaxLen linkMdu) numParts) := by
  -- Both products and the sum stay in the word, so no profile can fault or wrap.
  have start : segment * hashmapMaxLen linkMdu ≤ (segment + 1) * hashmapMaxLen linkMdu :=
    Nat.mul_le_mul_right _ (Nat.le_succ _)
  have next : segment + 1 ≤ (segment + 1) * hashmapMaxLen linkMdu :=
    Nat.le_mul_of_pos_right _ (Nat.pos_of_ne_zero room)
  simp only [segmentBounds, Profile.mul_ok profile (Nat.lt_of_le_of_lt start fits),
    Profile.add_ok profile (Nat.lt_of_le_of_lt next fits), Profile.mul_ok profile fits, Bind.bind,
    Except.bind, pure, Except.pure]

/-- Packing writes the dictionary with the hashes between the bounds of the segment. -/
theorem pack_eq {rmpv : Codec} {profile : Profile} {hashes : List MapHash}
    {segment linkMdu start stop : Nat} (whole : adv.hashmap = hashes.flatMap FourBytes.toBytes)
    (small : hashes.length * MAPHASH_LEN < usizeRange)
    (bounds : segmentBounds profile adv.numParts segment linkMdu = .ok (start, stop))
    (inside : stop ≤ hashes.length) :
    pack rmpv profile adv segment linkMdu =
      .ok (match rmpv.writeValue (.map (adv.dict
          (((hashes.drop start).take (stop - start)).flatMap FourBytes.toBytes))) with
        | some out => .ok out
        | none => .error .invalidArgument) := by
  -- The hash map is cut four bytes at a time, which gives back the hashes it was joined from.
  have collected := @packHashes_eq profile hashes small start (stop - start) fun i bound => by omega
  simp only [pack, bounds, whole, collected, Bind.bind, Except.bind]
  cases rmpv.writeValue _ <;> rfl

/-- The bytes an advertisement holds beside its digests are shorter than a limit. -/
def ShorterThan (limit : Nat) (adv : ResourceAdvertisement) : Prop :=
  adv.hashmap.length < limit ∧ ∀ requestId, adv.requestId = some requestId → requestId.length < limit

/-- An entry that holds fewer bytes than the limit leaves the advertisement below it. -/
theorem ShorterThan.takeEntry {limit : Nat} {entry : Value × Value} (shorter : adv.ShorterThan limit)
    (short : ∀ bytes, entry.2.asSlice = some bytes → bytes.length < limit) :
    (adv.takeEntry entry).ShorterThan limit := by
  unfold ResourceAdvertisement.takeEntry
  split
  · rename_i key named
    -- Only two keys set what is measured, both to the bytes of the value.
    cases key with
    | m =>
      simp only [put]
      split
      · rename_i bytes held
        exact ⟨short bytes held, shorter.2⟩
      · exact shorter
    | q =>
      simp only [put]
      split
      · rename_i bytes held
        split
        · exact shorter
        · refine ⟨shorter.1, fun requestId same => ?_⟩
          obtain rfl := Option.some.inj same
          -- An id that is taken has the bytes of the value.
          exact short bytes held
      · exact shorter
    | h | r | o =>
      simp only [put]
      split
      · exact shorter
      · exact shorter
    | _ => exact shorter
  · exact shorter

/-- So does a whole dictionary of such entries. -/
theorem ShorterThan.foldl {limit : Nat} {entries : List (Value × Value)} (shorter : adv.ShorterThan limit)
    (short : ∀ entry ∈ entries, ∀ bytes, entry.2.asSlice = some bytes → bytes.length < limit) :
    (entries.foldl ResourceAdvertisement.takeEntry adv).ShorterThan limit := by
  -- Each entry replaces at most one field, by bytes that are short themselves.
  induction entries generalizing adv with
  | nil => exact shorter
  | cons entry entries ih =>
    exact ih (shorter.takeEntry (short entry List.mem_cons_self))
      fun later member => short later (List.mem_cons_of_mem _ member)

/-- What is read holds fewer bytes than what it is read from, and than the format counts. -/
theorem unpack_shorter {rmpv : Codec} (lawful : rmpv.Lawful) {data : Bytes}
    (unpacked : unpack rmpv data = .ok adv) :
    adv.ShorterThan (data.length + 1) ∧ adv.ShorterThan (2 ^ 32) := by
  unfold unpack at unpacked
  split at unpacked
  · rename_i entries held
    obtain rfl := Except.ok.inj unpacked
    -- The dictionary is the value that was read.
    obtain ⟨value, read, isMap⟩ := Option.bind_eq_some_iff.mp held
    cases value with
    | map items =>
      obtain rfl := Option.some.inj isMap
      have bounded := lawful.bounded data items read
      -- The advertisement starts without any bytes, and every entry keeps the bound.
      constructor
      · refine ShorterThan.foldl ⟨Nat.succ_pos _, fun requestId none => by cases none⟩ ?_
        exact fun entry member bytes held => Nat.lt_succ_of_le (bounded entry member bytes held).1
      · refine ShorterThan.foldl ⟨by decide, fun requestId none => by cases none⟩ ?_
        exact fun entry member bytes held => (bounded entry member bytes held).2
    | _ => cases isMap
  · cases unpacked

/-- What is written of a segment is as long as the shortest form, and is read as it was written. -/
theorem Sized.written {rmpv : Codec} (sized : adv.Sized) (lawful : rmpv.Lawful) (hashmapSeg : Bytes) :
    ∃ data, rmpv.writeValue (.map (adv.dict hashmapSeg)) = some data ∧
      data.length = dictLength (adv.dict hashmapSeg) ∧
      (adv.LengthsFit hashmapSeg → unpack rmpv data = .ok { adv with hashmap := hashmapSeg }) := by
  -- The codec writes and reads the dictionary, and the fields are then taken one entry at a time.
  obtain ⟨data, written, length⟩ := lawful.writes _ (sized.plainDict hashmapSeg)
  refine ⟨data, written, length, fun fits => ?_⟩
  have read := lawful.reads _ data (sized.plainDict hashmapSeg) fits.entries written
  simp only [unpack, readDict, read, Bind.bind, Option.bind, Value.asMap, sized.foldl_dict]

end ResourceAdvertisement

/-- A resource whose advertisement has machine-sized numbers and a hash for every part. -/
structure Resource.Advertisable (r : Resource) : Prop where
  sized : (ResourceAdvertisement.fromResource r).Sized
  hashmap : r.hashmap = r.parts.map (·.mapHash)
  counted : r.info.totalParts = r.parts.length
  small : r.parts.length * 32 < isizeRange

/-- An outgoing resource can be advertised. -/
theorem Resource.new_advertisable {bzip2 : Bzip2} {draws : Draws} {data : Bytes} {linkMdu : Nat}
    {encrypt : Cipher} {requestId : Option Bytes} {isResponse autoCompress : Bool} {now : Instant}
    {r : Resource} (built : Resource.new bzip2 draws data linkMdu encrypt requestId isResponse
      autoCompress now = .ok (some (.ok r))) (memory : data.length < isizeRange)
    (nonempty : requestId ≠ some []) : r.Advertisable := by
  obtain ⟨payload, compressed, encryptedBuf, randomHash, parts, -, -, -, buffer, vector, named, rfl⟩ :=
    Resource.new_cases built
  -- Each slice of the buffer is a part.
  have count : parts.length = (cutParts encryptedBuf linkMdu).length := by
    rw [guardedParts_parts named, List.length_map]
  have one : 1 < isizeRange := by decide
  -- The buffers that were allocated bound the numbers.
  exact {
    sized := {
      transferSize := buffer
      dataSize := memory
      numParts := Nat.lt_of_le_of_lt (Nat.le_mul_of_pos_right _ (by decide)) vector
      segmentIndex := one
      totalSegments := one
      requestId := nonempty }
    hashmap := rfl
    counted := count.symm
    small := by
      show parts.length * 32 < isizeRange
      rw [count]
      exact vector }

/-- The hashes of a segment: those of the parts the segment covers. -/
def Resource.advertisedSegment (r : Resource) (linkMdu segment : Nat) : List MapHash :=
  ((r.parts.map (·.mapHash)).drop (segment * hashmapMaxLen linkMdu)).take (hashmapMaxLen linkMdu)

/-- A segment is packed, and is read as the same advertisement with the hashes of the segment. -/
def Resource.RoundTrips (rmpv : Codec) (profile : Profile) (r : Resource) (linkMdu segment : Nat) : Prop :=
  ∃ data, (ResourceAdvertisement.fromResource r).pack rmpv profile segment linkMdu = .ok (.ok data) ∧
    ResourceAdvertisement.unpack rmpv data = .ok { ResourceAdvertisement.fromResource r with
      hashmap := (r.advertisedSegment linkMdu segment).flatMap FourBytes.toBytes }

namespace Resource

variable {rmpv : Codec} {profile : Profile} {r : Resource} {linkMdu segment : Nat}

/-- What is packed of a resource is what its segment bounds enclose. -/
theorem Advertisable.pack_eq (advertisable : r.Advertisable) {start stop : Nat}
    (bounds : ResourceAdvertisement.segmentBounds profile r.info.totalParts segment linkMdu =
      .ok (start, stop)) (inside : stop ≤ r.parts.length) :
    (ResourceAdvertisement.fromResource r).pack rmpv profile segment linkMdu =
      .ok (match rmpv.writeValue (.map ((ResourceAdvertisement.fromResource r).dict
          ((((r.parts.map (·.mapHash)).drop start).take (stop - start)).flatMap FourBytes.toBytes))) with
        | some out => .ok out
        | none => .error .invalidArgument) := by
  -- A made resource keeps its hash map and its parts in step, so the general packing applies.
  have small := advertisable.small
  have whole : (ResourceAdvertisement.fromResource r).hashmap =
      (r.parts.map (·.mapHash)).flatMap FourBytes.toBytes := by
    rw [← advertisable.hashmap]
    rfl
  -- What can be allocated for the parts is enough for their hashes.
  refine ResourceAdvertisement.pack_eq whole ?_ bounds (by rw [List.length_map]; exact inside)
  rw [List.length_map]
  unfold MAPHASH_LEN usizeRange
  unfold isizeRange at small
  omega

/-- The hashes between the bounds of a segment are those of the segment. -/
theorem advertisedSegment_eq (r : Resource) (linkMdu segment : Nat) :
    ((r.parts.map (·.mapHash)).drop (segment * hashmapMaxLen linkMdu)).take
      (min ((segment + 1) * hashmapMaxLen linkMdu) r.parts.length - segment * hashmapMaxLen linkMdu) =
        r.advertisedSegment linkMdu segment := by
  -- Only the last segment is cut short by the end of the hashmap.
  rw [advertisedSegment, List.take_eq_take_iff, List.length_drop, List.length_map, Nat.succ_mul]
  omega

/-- Every segment that ends inside the machine's range makes the round trip. -/
theorem Advertisable.roundTrips (advertisable : r.Advertisable) (lawful : rmpv.Lawful)
    (room : hashmapMaxLen linkMdu ≠ 0) (range : (segment + 1) * hashmapMaxLen linkMdu < usizeRange)
    (fits : (ResourceAdvertisement.fromResource r).LengthsFit
      ((r.advertisedSegment linkMdu segment).flatMap FourBytes.toBytes)) :
    r.RoundTrips rmpv profile linkMdu segment := by
  -- The segment is cut at its bounds, written as one dictionary and read back from it.
  have bounds := @ResourceAdvertisement.segmentBounds_ok profile r.info.totalParts _ _ room range
  rw [advertisable.counted] at bounds
  have packed := @Advertisable.pack_eq rmpv profile r _ _ advertisable _ _
    (by rw [advertisable.counted]; exact bounds) (Nat.min_le_right _ _)
  rw [advertisedSegment_eq] at packed
  obtain ⟨data, written, -, unpacked⟩ := advertisable.sized.written lawful
    ((r.advertisedSegment linkMdu segment).flatMap FourBytes.toBytes)
  refine ⟨data, ?_, unpacked fits⟩
  rw [packed, written]

/-- The segments in order are the hashmap up to where they end. -/
theorem flatMap_advertisedSegment (r : Resource) (linkMdu count : Nat) :
    (List.range count).flatMap (r.advertisedSegment linkMdu) =
      (r.parts.map (·.mapHash)).take (count * hashmapMaxLen linkMdu) := by
  exact flatMap_slices _ _ _

end Resource

/--
Every segment of an outgoing resource's hashmap is read as it was packed, with all other fields of the
advertisement, while its bounds are numbers of the machine and its binaries can be counted in 32 bits; the
segments with hashes are such, and in order they are the hashmap, which names every part once.
-/
theorem advertisement_round_trip (rmpv : Codec) (lawful : rmpv.Lawful) (profile : Profile)
    (bzip2 : Bzip2) (draws : Draws) (data : Bytes) (newMdu : Nat) (encrypt : Cipher)
    (requestId : Option Bytes) (isResponse autoCompress : Bool) (now : Instant) (r : Resource)
    (built : Resource.new bzip2 draws data newMdu encrypt requestId isResponse autoCompress now =
      .ok (some (.ok r)))
    (memory : data.length < isizeRange) (nonempty : requestId ≠ some [])
    (counted : ∀ id, requestId = some id → id.length < 2 ^ 32) (linkMdu : Nat) (large : 138 ≤ linkMdu)
    (machine : linkMdu < usizeRange)
    (held : min (hashmapMaxLen linkMdu) r.parts.length * MAPHASH_LEN < 2 ^ 32) :
    (∀ segment, (segment + 1) * hashmapMaxLen linkMdu < usizeRange →
      r.RoundTrips rmpv profile linkMdu segment) ∧
    (∀ segment, segment * hashmapMaxLen linkMdu < r.parts.length →
      (segment + 1) * hashmapMaxLen linkMdu < usizeRange) ∧
    (∀ count, r.parts.length ≤ count * hashmapMaxLen linkMdu →
      ((List.range count).flatMap fun segment =>
        (r.advertisedSegment linkMdu segment).flatMap FourBytes.toBytes) =
          (ResourceAdvertisement.fromResource r).hashmap) ∧
    (ResourceAdvertisement.fromResource r).hashmap = r.parts.flatMap (·.mapHash.toBytes) := by
  have advertisable := Resource.new_advertisable built memory nonempty
  have whole : (ResourceAdvertisement.fromResource r).hashmap =
      (r.parts.map (·.mapHash)).flatMap FourBytes.toBytes := by
    rw [← advertisable.hashmap]
    rfl
  have room : hashmapMaxLen linkMdu ≠ 0 := by
    unfold hashmapMaxLen ADV_OVERHEAD MAPHASH_LEN
    omega
  refine ⟨fun segment range => ?_, fun segment inside => ?_, fun count enough => ?_, ?_⟩
  · -- A segment has no more hashes than there is room for, nor than there are parts.
    refine advertisable.roundTrips lawful room range ⟨?_, ?_⟩
    · rw [FourBytes.length_flatMap]
      refine Nat.lt_of_le_of_lt (Nat.mul_le_mul_right _ ?_) held
      rw [Resource.advertisedSegment, List.length_take, List.length_drop, List.length_map]
      omega
    · obtain ⟨payload, compressed, encryptedBuf, randomHash, parts, -, -, -, -, -, -, rfl⟩ :=
        Resource.new_cases built
      exact counted
  · -- A segment with a hash is one whose bounds do not overflow.
    have small := advertisable.small
    rw [Nat.succ_mul]
    unfold hashmapMaxLen MAPHASH_LEN at *
    unfold usizeRange at *
    unfold isizeRange at small
    omega
  · -- The segments follow one another, and together they are all hashes.
    rw [whole, ← List.flatMap_assoc, Resource.flatMap_advertisedSegment,
      List.take_of_length_le (by rw [List.length_map]; exact enough)]
  · rw [whole, List.flatMap_map]

/-- A resource of one part whose request has some id. -/
def onePartResource (requestId : Option Bytes) : Resource :=
  .outgoing .zero .zero (List.replicate 396 0) [List.replicate 400 0].flatten
    [{ data := List.replicate 400 0, mapHash := mapHashOf (List.replicate 400 0) .zero, sent := false }]
    400 false requestId false 0

/-- The constructor returns it. -/
theorem new_onePartResource (requestId : Option Bytes) :
    Resource.new storeBzip2 ⟨.zero, .zero, []⟩ (List.replicate 396 0) 400 copyCipher requestId false false 0 =
      .ok (some (.ok (onePartResource requestId))) := by
  -- The stream is a single full slice, which collides with no other.
  have stream : FourBytes.zero.toBytes ++ List.replicate 396 0 =
      [List.replicate 400 (0 : UInt8)].flatten := by
    decide +kernel
  exact new_of_blocks stream (by decide)
    (fun block member => by rw [List.mem_singleton.mp member, List.length_replicate]) (by decide)
    (guardedParts_of_nodup (List.pairwise_singleton _ _))

/-- Its advertisement makes the round trip. -/
theorem advertisement_round_trip_short : ∃ r,
    Resource.new storeBzip2 ⟨.zero, .zero, []⟩ (List.replicate 396 0) 400 copyCipher
      (some (List.replicate 16 1)) false false 0 = .ok (some (.ok r)) ∧
    r.RoundTrips plainCodec .debug 400 0 := by
  -- One part needs one segment, which is segment zero.
  have short : ∀ id, some (List.replicate 16 (1 : UInt8)) = some id → id.length < 2 ^ 32 := by
    intro id same
    obtain rfl := Option.some.inj same
    decide
  have trips := (advertisement_round_trip plainCodec plainCodec_lawful .debug _ _ _ _ _ _ _ _ _ _
    (new_onePartResource (some (List.replicate 16 1))) (by rw [List.length_replicate]; decide)
    (by decide) short 400
    (by decide) (by decide) (by decide)).1 0 (by decide)
  exact ⟨_, new_onePartResource _, trips⟩

/--
A segment whose bounds wrap is packed with hashes that are not its own, and a request id that the format
cannot count is not read again.
-/
theorem wrapped_segment_and_huge_id :
    (∃ r, Resource.new storeBzip2 ⟨.zero, .zero, []⟩ (List.replicate 396 0) 400 copyCipher none false
        false 0 =
        .ok (some (.ok r)) ∧ ¬ r.RoundTrips plainCodec .release 400 (2 ^ 63)) ∧
    ∃ r, Resource.new storeBzip2 ⟨.zero, .zero, []⟩ (List.replicate 396 0) 400 copyCipher
        (some (List.replicate (2 ^ 32) 0)) false false 0 = .ok (some (.ok r)) ∧
      ¬ r.RoundTrips plainCodec .release 400 0 := by
  constructor
  · refine ⟨_, new_onePartResource none, ?_⟩
    rintro ⟨data, packed, unpacked⟩
    -- The first hash of the segment is taken for the first of all.
    have bounds : ResourceAdvertisement.segmentBounds .release (onePartResource none).info.totalParts
        (2 ^ 63) 400 =
        .ok (0, 1) := by
      decide +kernel
    have advertisable := Resource.new_advertisable (new_onePartResource none)
      (by rw [List.length_replicate]; decide) (by decide)
    have wrapped := @Resource.Advertisable.pack_eq plainCodec _ _ _ _ advertisable _ _ bounds (by decide)
    obtain ⟨out, written, -, read⟩ := advertisable.sized.written plainCodec_lawful
      (((((onePartResource none).parts.map (·.mapHash)).drop 0).take (1 - 0)).flatMap FourBytes.toBytes)
    rw [written] at wrapped
    obtain rfl := Except.ok.inj (Except.ok.inj (packed.symm.trans wrapped))
    have other := read ⟨by decide, fun requestId impossible => by cases impossible⟩
    -- The segment itself lies beyond the only part.
    have same := congrArg ResourceAdvertisement.hashmap (Except.ok.inj (other.symm.trans unpacked))
    exact absurd (congrArg List.length same) (by decide)
  · refine ⟨_, new_onePartResource _, ?_⟩
    rintro ⟨data, -, unpacked⟩
    -- An id that is read is shorter than what can be counted.
    have shorter := (ResourceAdvertisement.unpack_shorter plainCodec_lawful unpacked).2.2 _ rfl
    rw [List.length_replicate] at shorter
    exact Nat.lt_irrefl _ shorter

end Reticulum
