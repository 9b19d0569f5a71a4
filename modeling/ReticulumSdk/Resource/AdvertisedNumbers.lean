import ReticulumSdk.Resource.AdvertisementLaws
import ReticulumSdk.Resource.Bookkeeping

/-! What a receiver makes of the numbers in an advertisement, whoever sent it. -/

namespace Reticulum

open Resource Msgpack Slots

/-- An advertisement from the network: it is unpacked, a resource is made for it, and receiving is started. -/
def Resource.receiveAdvertisement (rmpv : Codec) (profile : Profile) (data : Bytes) (linkMdu : Nat)
    (rtt : Duration) (requestId : Option Bytes) (now : Instant) :
    Outcome (Except RnsError (Resource × Bytes)) :=
  match ResourceAdvertisement.unpack rmpv data with
  | .error fault => .ok (.error fault)
  | .ok adv => do
    let r ← newFromAdvertisement profile adv linkMdu rtt requestId now
    let (r, request) ← startReceive profile r adv.hashmap now
    return request.map fun bytes => (r, bytes)

/-- The parts a transfer of some size needs. -/
def partsNeeded (transferSize linkMdu : Nat) : Nat := (transferSize + linkMdu - 1) / linkMdu

namespace AdvertisementKey

/-- The keys of numbers that become machine words. -/
def words : List AdvertisementKey := [t, d, n, i, l]

end AdvertisementKey

/-- The number of an entry is the one its field is set to. -/
def Converts (entry : Value × Value) : Prop :=
  ∀ key number, AdvertisementKey.ofValue entry.1 = some key → entry.2.asI64 = some number →
    (key ∈ AdvertisementKey.words → (asUsize number : Int) = number) ∧
      (key = .f → ((asU8 number).toNat : Int) = number)

/-- What a receiver should make of any bytes: no panic, sound conversions and no more parts than needed. -/
structure HandledTotally (rmpv : Codec) (profile : Profile) (data : Bytes) (linkMdu : Nat) (rtt : Duration)
    (requestId : Option Bytes) (now : Instant) : Prop where
  total : ∃ result, receiveAdvertisement rmpv profile data linkMdu rtt requestId now = .ok result ∧
    ∀ r request, result = .ok (r, request) →
      r.info.totalParts = partsNeeded r.info.size linkMdu ∧ r.info.sdu = linkMdu
  converts : ∀ entries, ResourceAdvertisement.readDict rmpv data = some entries →
    ∀ entry ∈ entries, Converts entry
  multiplies : ∀ adv, ResourceAdvertisement.unpack rmpv data = .ok adv →
    adv.numParts * MAPHASH_LEN < usizeRange
  allocates : ∀ adv, ResourceAdvertisement.unpack rmpv data = .ok adv →
    adv.numParts ≤ partsNeeded adv.transferSize linkMdu

/-- The number that is advertised under a key, that of the last entry with it. -/
def advertised (entries : List (Value × Value)) (key : AdvertisementKey) : Int :=
  entries.foldl (fun last entry =>
    if AdvertisementKey.ofValue entry.1 = some key then entry.2.asI64.getD 0 else last) 0

/-- A number that the field of its key can hold. -/
def InRange (entry : Value × Value) : Prop :=
  ∀ key number, AdvertisementKey.ofValue entry.1 = some key → entry.2.asI64 = some number →
    (key ∈ AdvertisementKey.words → 0 ≤ number) ∧ (key = .f → 0 ≤ number ∧ number < 256)

/--
A dictionary whose numbers can be held and whose number of parts is that of its size; on a link that has no
room for a hash it may be smaller, and is then bounded by what can be allocated.
-/
structure WellAdvertised (entries : List (Value × Value)) (linkMdu : Nat) : Prop where
  inRange : ∀ entry ∈ entries, InRange entry
  bounded : (advertised entries .n).toNat ≤ partsNeeded (advertised entries .t).toNat linkMdu
  whole : hashmapMaxLen linkMdu ≠ 0 →
    (advertised entries .n).toNat = partsNeeded (advertised entries .t).toNat linkMdu
  allocatable : hashmapMaxLen linkMdu = 0 → (advertised entries .n).toNat * 24 < isizeRange

/-- What is read as a signed number is small enough for an unsigned one. -/
theorem asI64_lt {value : Value} {number : Int} (read : value.asI64 = some number) :
    number < (isizeRange : Int) := by
  -- Only an integer is read at all, and only inside the signed range.
  cases value with
  | integer held =>
    simp only [Value.asI64] at read
    split at read
    · rename_i bounds
      obtain rfl := Option.some.inj read
      exact bounds.2
    · cases read
  | _ => cases read

/-- A conversion is sound exactly for the numbers its type holds. -/
theorem converts_iff (entry : Value × Value) : Converts entry ↔ InRange entry := by
  -- A cast keeps exactly the numbers that the field's type can hold.
  constructor
  · intro converts key number named read
    obtain ⟨word, byte⟩ := converts key number named read
    -- What a cast gives is never negative, and a byte is below 256.
    refine ⟨fun member => ?_, fun same => ?_⟩
    · rw [← word member]
      omega
    · have small := (asU8 number).toNat_lt
      rw [← byte same]
      omega
  · intro inRange key number named read
    obtain ⟨word, byte⟩ := inRange key number named read
    have small := asI64_lt read
    -- A number already in the range of its field comes back from the cast unchanged.
    refine ⟨fun member => ?_, fun same => ?_⟩
    · have positive := word member
      obtain ⟨value, rfl⟩ := Int.eq_ofNat_of_zero_le positive
      rw [asUsize_natCast]
      have range : isizeRange < usizeRange := by decide
      omega
    · obtain ⟨positive, byteSized⟩ := byte same
      have kept : number % 256 = number := Int.emod_eq_of_lt positive byteSized
      rw [asU8, kept, UInt8.toNat_ofNat']
      omega

namespace ResourceAdvertisement

/-- Only the keys of the size and of the parts set these numbers. -/
theorem takeEntry_numbers (adv : ResourceAdvertisement) (entry : Value × Value) :
    ((adv.takeEntry entry).transferSize =
      if AdvertisementKey.ofValue entry.1 = some .t then asUsize (entry.2.asI64.getD 0)
      else adv.transferSize) ∧
    (adv.takeEntry entry).numParts =
      if AdvertisementKey.ofValue entry.1 = some .n then asUsize (entry.2.asI64.getD 0)
      else adv.numParts := by
  unfold takeEntry
  cases AdvertisementKey.ofValue entry.1 with
  | none => simp
  | some key =>
    cases key <;> simp only [put, Option.some.injEq, reduceCtorEq, if_true, if_false, and_self]
    -- The other keys set other fields, if their value is of the right kind.
    case h | r | o | m =>
      split <;> exact ⟨rfl, rfl⟩
    case q =>
      split
      · split <;> exact ⟨rfl, rfl⟩
      · exact ⟨rfl, rfl⟩

end ResourceAdvertisement

/-- The last entry decides if it has the key. -/
theorem advertised_append (entries : List (Value × Value)) (entry : Value × Value)
    (key : AdvertisementKey) : advertised (entries ++ [entry]) key =
      if AdvertisementKey.ofValue entry.1 = some key then entry.2.asI64.getD 0
      else advertised entries key := by
  rw [advertised, List.foldl_append, List.foldl_cons, List.foldl_nil]
  rfl

/-- A field that one key alone sets ends as the number advertised under the key. -/
theorem foldl_advertised {entries : List (Value × Value)} {key : AdvertisementKey}
    {field : ResourceAdvertisement → Nat}
    (sets : ∀ (adv : ResourceAdvertisement) entry, field (adv.takeEntry entry) =
      if AdvertisementKey.ofValue entry.1 = some key then asUsize (entry.2.asI64.getD 0) else field adv)
    (start : field .empty = 0) :
    field (entries.foldl ResourceAdvertisement.takeEntry .empty) = asUsize (advertised entries key) := by
  -- Entry by entry, the field is the conversion of the last number under the key.
  induction entries using List.reverseRecOn with
  | nil =>
    rw [List.foldl_nil, start]
    rfl
  | append_singleton entries entry ih =>
    rw [List.foldl_append, List.foldl_cons, List.foldl_nil, sets, ih, advertised_append]
    split
    · rfl
    · rfl

/-- Numbers in range are advertised as words. -/
theorem advertised_inRange {entries : List (Value × Value)} (inRange : ∀ entry ∈ entries, InRange entry)
    {key : AdvertisementKey} (word : key ∈ AdvertisementKey.words) :
    0 ≤ advertised entries key ∧ advertised entries key < (isizeRange : Int) := by
  -- The last entry under the key decides, and without one the number is zero.
  have range : (0 : Int) < isizeRange := by decide
  induction entries using List.reverseRecOn with
  | nil => exact ⟨Int.le_refl _, range⟩
  | append_singleton entries entry ih =>
    have before := ih fun earlier member => inRange earlier (List.mem_append_left _ member)
    rw [advertised_append]
    split
    · rename_i named
      cases read : entry.2.asI64 with
      | none => exact ⟨Int.le_refl _, range⟩
      | some number =>
        -- The number of the last entry is in range like any other.
        have last := inRange entry (List.mem_append_right _ List.mem_cons_self) key number named read
        exact ⟨last.1 word, asI64_lt read⟩
    · -- An entry with another key changes nothing.
      exact before

/-- A word in range is converted to itself. -/
theorem asUsize_toNat {number : Int} (positive : 0 ≤ number) (small : number < (isizeRange : Int)) :
    asUsize number = number.toNat := by
  -- A number in the signed range is a word that the cast keeps.
  obtain ⟨value, rfl⟩ := Int.eq_ofNat_of_zero_le positive
  have range : isizeRange < usizeRange := by decide
  rw [Int.toNat_natCast, asUsize_natCast (by omega)]

namespace Resource

/-- Cutting a buffer gives no more arrays than it has bytes. -/
theorem chunks_length_le (data : Bytes) : (FourBytes.chunks data).length ≤ data.length := by
  -- Each hash takes four bytes.
  fun_induction FourBytes.chunks data with
  | case1 b0 b1 b2 b3 rest ih =>
    simp only [List.length_cons]
    omega
  | case2 data short => exact Nat.zero_le _

/-- Hashes that go to places in the machine's range are applied, and the zeros they cover are counted. -/
theorem applyHashmap_ok {profile : Profile} {r : Resource} {segment : Nat} {hashmapData : Bytes}
    (sized : r.hashmap.length = r.info.totalParts) (room : hashmapMaxLen r.info.sdu ≠ 0)
    (fits : segment * hashmapMaxLen r.info.sdu + hashmapData.length ≤ usizeRange)
    (small : r.hashmapHeight + r.info.totalParts < usizeRange) :
    ∃ final, applyHashmap profile r segment hashmapData = .ok (final, .ok ()) ∧
      final.waitingForHmu = false ∧ final.hashmapHeight ≤ r.hashmapHeight + r.info.totalParts := by
  have chunks := chunks_length_le hashmapData
  -- No more zeros are covered than there are places.
  have covered : (((r.hashmap.drop (segment * hashmapMaxLen r.info.sdu + 0)).take
      (FourBytes.chunks hashmapData).length).countP (·.isZero)) ≤ r.info.totalParts := by
    refine Nat.le_trans List.countP_le_length ?_
    rw [List.length_take, List.length_drop]
    omega
  have counted := @countHeight_ok profile ((r.hashmap.drop (segment * hashmapMaxLen r.info.sdu + 0)).take
    (FourBytes.chunks hashmapData).length) r.hashmapHeight (by omega)
  -- Every hash has a place in the machine's range, so that none stops the loop.
  have applied := @applyHashes_eq profile segment (hashmapMaxLen r.info.sdu) 0
    (FourBytes.chunks hashmapData) r sized (by omega)
  rw [counted] at applied
  simp only [applyHashmap, room, if_false, applied, Except.map, Bind.bind, Except.bind, pure, Except.pure]
  exact ⟨_, rfl, rfl, Nat.add_le_add_left covered _⟩

/-- On a link with room for hashes, a new receiver starts whatever hashes it is sent. -/
theorem startReceive_new {profile : Profile} {adv : ResourceAdvertisement} {linkMdu : Nat} {rtt : Duration}
    {requestId : Option Bytes} {now : Instant} {r : Resource}
    (created : newFromAdvertisement profile adv linkMdu rtt requestId now = .ok r)
    (room : hashmapMaxLen linkMdu ≠ 0) {hashmap : Bytes} (short : hashmap.length < isizeRange) :
    ∃ final request, startReceive profile r hashmap now = .ok (final, .ok request) ∧
      final.info = r.info := by
  have books := newFromAdvertisement_bookkeeping created
  -- A new resource has no hashes yet.
  have fresh : r.hashmapHeight = 0 ∧ r.info.sdu = linkMdu := by
    simp only [newFromAdvertisement, bind_eq_ok] at created
    obtain ⟨bytes, -, _, -, _, -, made⟩ := created
    obtain rfl := Except.ok.inj made
    exact ⟨rfl, rfl⟩
  obtain ⟨height, sdu⟩ := fresh
  have small := books.small
  have range : isizeRange < usizeRange := by decide
  -- The first hashes are applied, and the request is built from the books that are left.
  obtain ⟨applied, applying, idle, below⟩ := @applyHashmap_ok profile { r with
      status := .transferring, timing := { r.timing with lastActivity := now } } 0 hashmap books.sized
    (by rw [sdu]; exact room) (by rw [Nat.zero_mul]; omega)
    (by show r.hashmapHeight + r.info.totalParts < usizeRange; omega)
  obtain ⟨hashes, raised, waiting, frame, length⟩ := applyHashmap_frame applying
  obtain ⟨final, request, asked⟩ := buildRequest_ok (r := applied) (by
      rw [frame]
      exact { books with sized := length.trans books.sized }) profile idle (by
        rw [height, Nat.zero_add] at below
        rw [frame] at below ⊢
        exact below)
  obtain ⟨outstanding, later, same⟩ := buildRequest_frame asked
  refine ⟨final, request, ?_, by rw [same, frame]⟩
  simp only [startReceive, applying, asked, Bind.bind, Except.bind]

/-- A resource is made for an advertisement exactly when its buffers can be allocated. -/
theorem newFromAdvertisement_ok_iff {profile : Profile} {adv : ResourceAdvertisement} {linkMdu : Nat}
    {rtt : Duration} {requestId : Option Bytes} {now : Instant} :
    (∃ r, newFromAdvertisement profile adv linkMdu rtt requestId now = .ok r) ↔
      adv.numParts * 24 < isizeRange := by
  -- The part slots are the largest of the three requests, so theirs is the bound that decides.
  constructor
  · intro ⟨r, created⟩
    simp only [newFromAdvertisement, bind_eq_ok] at created
    obtain ⟨bytes, -, _, -, _, allocated, -⟩ := created
    exact lt_of_allocate allocated
  · intro small
    have range : isizeRange < usizeRange := by decide
    -- Four bytes a part are fewer than the 24 of its slot.
    have product : profile.mul usizeRange adv.numParts MAPHASH_LEN = .ok (adv.numParts * 4) :=
      Profile.mul_ok profile (by unfold MAPHASH_LEN; omega)
    have hashes : allocate (adv.numParts * 4) 1 = .ok () := by
      rw [allocate, if_pos (by omega)]
    have slots : allocate adv.numParts 24 = .ok () := by rw [allocate, if_pos small]
    simp only [newFromAdvertisement, product, hashes, slots, Bind.bind, Except.bind]
    exact ⟨_, rfl⟩

/-- It has the numbers of the advertisement. -/
theorem newFromAdvertisement_info {profile : Profile} {adv : ResourceAdvertisement} {linkMdu : Nat}
    {rtt : Duration} {requestId : Option Bytes} {now : Instant} {r : Resource}
    (created : newFromAdvertisement profile adv linkMdu rtt requestId now = .ok r) :
    r.info.totalParts = adv.numParts ∧ r.info.size = adv.transferSize ∧ r.info.sdu = linkMdu := by
  -- The three fields are copied from the advertisement.
  simp only [newFromAdvertisement, bind_eq_ok] at created
  obtain ⟨bytes, -, _, -, _, -, made⟩ := created
  obtain rfl := Except.ok.inj made
  exact ⟨rfl, rfl, rfl⟩

/-- Without room for hashes nothing is received. -/
theorem startReceive_full {profile : Profile} {r : Resource} {hashmap : Bytes} {now : Instant}
    (full : hashmapMaxLen r.info.sdu = 0) :
    ∃ final fault, startReceive profile r hashmap now = .ok (final, .error fault) := by
  simp only [startReceive, applyHashmap, full, if_true, Bind.bind, Except.bind, pure, Except.pure]
  exact ⟨_, _, rfl⟩

end Resource

/-- As many parts as a size needs on a link with room for hashes can be allocated. -/
theorem partsNeeded_allocatable {transferSize linkMdu : Nat} (room : hashmapMaxLen linkMdu ≠ 0)
    (small : transferSize < isizeRange) : partsNeeded transferSize linkMdu * 24 < isizeRange := by
  -- Every part but the last has more than a hundred bytes.
  have wide : 138 ≤ linkMdu := by
    unfold hashmapMaxLen ADV_OVERHEAD MAPHASH_LEN at room
    omega
  have parts : partsNeeded transferSize linkMdu * linkMdu ≤ transferSize + linkMdu - 1 :=
    Nat.div_mul_le_self _ _
  have range : 3312 < isizeRange := by decide
  generalize isizeRange = limit at small range ⊢
  generalize partsNeeded transferSize linkMdu = count at parts ⊢
  cases count with
  | zero => omega
  | succ count =>
    -- The slots of all parts but one take less than a fifth of the size.
    have fewer : count * 138 ≤ count * linkMdu := Nat.mul_le_mul_left _ wide
    rw [Nat.succ_mul] at parts
    omega

/-- A dictionary's size and number of parts, as they are unpacked. -/
theorem unpack_numbers {rmpv : Codec} {data : Bytes} {entries : List (Value × Value)}
    (held : ResourceAdvertisement.readDict rmpv data = some entries)
    (inRange : ∀ entry ∈ entries, InRange entry) :
    ∃ adv, ResourceAdvertisement.unpack rmpv data = .ok adv ∧
      adv.transferSize = (advertised entries .t).toNat ∧ adv.numParts = (advertised entries .n).toNat := by
  -- In the signed range the cast of a number is the number, so the fields hold what was advertised.
  have size := @advertised_inRange entries inRange .t (by decide)
  have parts := @advertised_inRange entries inRange .n (by decide)
  refine ⟨entries.foldl ResourceAdvertisement.takeEntry .empty, ?_, ?_, ?_⟩
  · rw [ResourceAdvertisement.unpack, held]
  · rw [← asUsize_toNat size.1 size.2]
    exact foldl_advertised (fun adv entry => (adv.takeEntry_numbers entry).1) rfl
  · rw [← asUsize_toNat parts.1 parts.2]
    exact foldl_advertised (fun adv entry => (adv.takeEntry_numbers entry).2) rfl

section Handled

variable {rmpv : Codec} {profile : Profile} {data : Bytes} {linkMdu : Nat} {rtt : Duration}
  {requestId : Option Bytes} {now : Instant} {entries : List (Value × Value)}

/-- Bytes without a dictionary are refused, and nothing is done with them. -/
theorem handledTotally_of_refused (held : ResourceAdvertisement.readDict rmpv data = none) :
    HandledTotally rmpv profile data linkMdu rtt requestId now := by
  -- Unpacking is where they stop.
  have refused : ResourceAdvertisement.unpack rmpv data = .error .packetError := by
    rw [ResourceAdvertisement.unpack, held]
  constructor
  · refine ⟨.error .packetError, ?_, fun r request impossible => ?_⟩
    · rw [Resource.receiveAdvertisement, refused]
    · cases impossible
  · intro entries impossible
    rw [held] at impossible
    cases impossible
  · intro adv impossible
    rw [refused] at impossible
    cases impossible
  · intro adv impossible
    rw [refused] at impossible
    cases impossible

/-- The buffers of a well advertised transfer can be allocated. -/
theorem WellAdvertised.allocates (well : WellAdvertised entries linkMdu) :
    (advertised entries .n).toNat * 24 < isizeRange := by
  have small := @advertised_inRange entries well.inRange .t (by decide)
  by_cases room : hashmapMaxLen linkMdu = 0
  · exact well.allocatable room
  · -- The number of parts is the one that the size needs.
    rw [well.whole room]
    exact partsNeeded_allocatable room (by omega)

/-- A well advertised transfer is received with as many parts as it needs, or refused by the link. -/
theorem WellAdvertised.received (well : WellAdvertised entries linkMdu) (lawful : rmpv.Lawful)
    (memory : data.length < isizeRange)
    (held : ResourceAdvertisement.readDict rmpv data = some entries) :
    ∃ result, Resource.receiveAdvertisement rmpv profile data linkMdu rtt requestId now = .ok result ∧
      ∀ r request, result = .ok (r, request) →
        r.info.totalParts = partsNeeded r.info.size linkMdu ∧ r.info.sdu = linkMdu := by
  obtain ⟨adv, unpacked, size, parts⟩ := unpack_numbers held well.inRange
  obtain ⟨r, created⟩ := (@Resource.newFromAdvertisement_ok_iff profile adv linkMdu rtt requestId now).mpr
    (by rw [parts]; exact well.allocates)
  obtain ⟨totalParts, transferSize, sdu⟩ := Resource.newFromAdvertisement_info created
  simp only [Resource.receiveAdvertisement, unpacked, created, Bind.bind, Except.bind]
  by_cases room : hashmapMaxLen linkMdu = 0
  · -- The resource is given up as soon as receiving is started.
    obtain ⟨final, fault, stopped⟩ := @Resource.startReceive_full profile r adv.hashmap now
      (by rw [sdu]; exact room)
    rw [stopped]
    refine ⟨_, rfl, fun found request impossible => ?_⟩
    cases impossible
  · -- Receiving starts whatever the hashes are, and leaves the numbers alone.
    have short : adv.hashmap.length < isizeRange :=
      Nat.lt_of_lt_of_le (ResourceAdvertisement.unpack_shorter lawful unpacked).1.1 memory
    obtain ⟨final, request, started, same⟩ := Resource.startReceive_new created room short
    rw [started]
    refine ⟨_, rfl, fun found asked done => ?_⟩
    obtain ⟨rfl, -⟩ := Prod.mk.inj (Except.ok.inj done)
    rw [same, totalParts, transferSize, sdu, parts, size, well.whole room]
    exact ⟨rfl, rfl⟩

/-- A well advertised transfer is handled totally. -/
theorem WellAdvertised.handledTotally (well : WellAdvertised entries linkMdu) (lawful : rmpv.Lawful)
    (memory : data.length < isizeRange)
    (held : ResourceAdvertisement.readDict rmpv data = some entries) :
    HandledTotally rmpv profile data linkMdu rtt requestId now := by
  obtain ⟨adv, unpacked, size, parts⟩ := unpack_numbers held well.inRange
  refine ⟨well.received lawful memory held, ?_, ?_, ?_⟩
  · intro others same entry member
    obtain rfl := Option.some.inj (held.symm.trans same)
    -- Numbers in range convert soundly.
    exact (converts_iff entry).mpr (well.inRange entry member)
  · -- What can be allocated is small enough to be multiplied.
    intro other same
    obtain rfl := Except.ok.inj (unpacked.symm.trans same)
    have allocates := well.allocates
    have range : isizeRange < usizeRange := by decide
    unfold MAPHASH_LEN
    omega
  · intro other same
    obtain rfl := Except.ok.inj (unpacked.symm.trans same)
    rw [parts, size]
    exact well.bounded

/-- A dictionary that is handled totally is well advertised. -/
theorem HandledTotally.wellAdvertised (handled : HandledTotally rmpv profile data linkMdu rtt requestId now)
    (lawful : rmpv.Lawful) (memory : data.length < isizeRange)
    (held : ResourceAdvertisement.readDict rmpv data = some entries) : WellAdvertised entries linkMdu := by
  -- What converts soundly is in range.
  have inRange : ∀ entry ∈ entries, InRange entry := fun entry member =>
    (converts_iff entry).mp (handled.converts entries held entry member)
  obtain ⟨adv, unpacked, size, parts⟩ := unpack_numbers held inRange
  obtain ⟨result, received, consistent⟩ := handled.total
  -- Without a panic the steps were taken one after the other.
  simp only [Resource.receiveAdvertisement, unpacked, bind_eq_ok] at received
  obtain ⟨r, created, ⟨final, answer⟩, started, done⟩ := received
  obtain ⟨totalParts, transferSize, -⟩ := Resource.newFromAdvertisement_info created
  refine ⟨inRange, ?_, fun room => ?_, fun _ => ?_⟩
  · rw [← size, ← parts]
    exact handled.allocates adv unpacked
  · -- A link with room for hashes refuses nothing, so the resource is there.
    have short : adv.hashmap.length < isizeRange :=
      Nat.lt_of_lt_of_le (ResourceAdvertisement.unpack_shorter lawful unpacked).1.1 memory
    obtain ⟨other, request, began, same⟩ := Resource.startReceive_new created room short
    obtain ⟨rfl, rfl⟩ := Prod.mk.inj (Except.ok.inj (started.symm.trans began))
    have whole := (consistent final request (Except.ok.inj done).symm).1
    rw [same, totalParts, transferSize, size, parts] at whole
    exact whole
  · -- No panic means in particular that the buffers were allocated.
    rw [← parts]
    exact Resource.newFromAdvertisement_ok_iff.mp ⟨r, created⟩

end Handled

/--
Bytes from the network are handled totally exactly when they hold no dictionary or one that is well
advertised: numbers its fields can hold, and as many parts as the size needs on this link.
-/
theorem advertisement_handled_iff (rmpv : Codec) (lawful : rmpv.Lawful) (profile : Profile) (data : Bytes)
    (memory : data.length < isizeRange) (linkMdu : Nat) (rtt : Duration) (requestId : Option Bytes)
    (now : Instant) :
    HandledTotally rmpv profile data linkMdu rtt requestId now ↔
      ∀ entries, ResourceAdvertisement.readDict rmpv data = some entries →
        WellAdvertised entries linkMdu := by
  constructor
  · intro handled entries held
    exact handled.wellAdvertised lawful memory held
  · intro well
    cases held : ResourceAdvertisement.readDict rmpv data with
    | none => exact handledTotally_of_refused held
    | some entries => exact (well entries held).handledTotally lawful memory held

/-- A thousand bytes in three parts. -/
private def threeParts : Bytes := [0x82, 0xA1, 0x74, 0xCD, 0x03, 0xE8, 0xA1, 0x6E, 0x03]

/-- An advertisement of three parts for a size that needs three is handled totally. -/
theorem advertisement_handled_iff_three :
    HandledTotally plainCodec .debug threeParts 400 0 none 0 := by
  -- Three parts of a thousand bytes are what the link needs, and no field is out of range.
  refine (advertisement_handled_iff plainCodec plainCodec_lawful .debug threeParts (by decide) 400 0 none
    0).mpr fun entries held => ?_
  have read : ResourceAdvertisement.readDict plainCodec threeParts =
      some [(.string [0x74], .integer 1000), (.string [0x6E], .integer 3)] := rfl
  obtain rfl := Option.some.inj (read.symm.trans held)
  have size : AdvertisementKey.ofValue (.string [0x74]) = some .t := by decide +kernel
  have parts : AdvertisementKey.ofValue (.string [0x6E]) = some .n := by decide +kernel
  have advertisedSize : advertised [(.string [0x74], .integer 1000), (.string [0x6E], .integer 3)] .t =
      1000 := by
    decide +kernel
  have advertisedParts : advertised [(.string [0x74], .integer 1000), (.string [0x6E], .integer 3)] .n =
      3 := by
    decide +kernel
  refine ⟨fun entry member key number named same => ?_, ?_, fun _ => ?_, fun full => ?_⟩
  · -- The two entries have one key each.
    rcases List.mem_cons.mp member with rfl | member
    · obtain rfl := Option.some.inj (size.symm.trans named)
      obtain rfl := Option.some.inj same
      decide
    · obtain rfl := List.mem_singleton.mp member
      obtain rfl := Option.some.inj (parts.symm.trans named)
      obtain rfl := Option.some.inj same
      decide
  · rw [advertisedSize, advertisedParts]
    decide
  · rw [advertisedSize, advertisedParts]
    decide
  · exact absurd full (by decide)

/-- The largest number of parts there is, for nothing. -/
private def hugeParts : Bytes :=
  [0x81, 0xA1, 0x6E, 0xCF, 0x7F, 0xFF, 0xFF, 0xFF, 0xFF, 0xFF, 0xFF, 0xFF]

/-- Twelve bytes from the network stop the receiver, however it was built. -/
theorem huge_parts_panic : ¬ ∀ (rmpv : Codec), rmpv.Lawful → ∀ (profile : Profile) (data : Bytes),
    data.length < isizeRange → ∀ (linkMdu : Nat) (rtt : Duration) (requestId : Option Bytes) (now : Instant),
      HandledTotally rmpv profile data linkMdu rtt requestId now := by
  intro handled
  have read : ResourceAdvertisement.readDict plainCodec hugeParts =
      some [(.string [0x6E], .integer 0x7FFFFFFFFFFFFFFF)] := rfl
  have parts : AdvertisementKey.ofValue (.string [0x6E]) = some .n := by decide +kernel
  -- The number is in range for a signed word.
  have inRange : ∀ entry ∈ [(Value.string [0x6E], Value.integer 0x7FFFFFFFFFFFFFFF)], InRange entry := by
    intro entry member key number named same
    obtain rfl := List.mem_singleton.mp member
    obtain rfl := Option.some.inj (parts.symm.trans named)
    obtain rfl := Option.some.inj same
    decide
  obtain ⟨adv, unpacked, -, numParts⟩ := unpack_numbers read inRange
  have advertisedParts : advertised [(.string [0x6E], .integer 0x7FFFFFFFFFFFFFFF)] .n =
      0x7FFFFFFFFFFFFFFF := by
    decide +kernel
  rw [advertisedParts] at numParts
  -- No build can allocate the buffers of so many parts.
  obtain ⟨result, received, -⟩ := (handled plainCodec plainCodec_lawful .release hugeParts (by decide) 400 0
    none 0).total
  simp only [Resource.receiveAdvertisement, unpacked, bind_eq_ok] at received
  obtain ⟨r, created, -⟩ := received
  have small := Resource.newFromAdvertisement_ok_iff.mp ⟨r, created⟩
  rw [numParts] at small
  exact absurd small (by decide)

end Reticulum
