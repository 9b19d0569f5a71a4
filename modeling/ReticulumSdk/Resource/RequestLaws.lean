import Mathlib.Data.List.Sort
import Mathlib.Data.List.TakeWhile
import ReticulumSdk.Resource.SessionLaws

/-! What a receiver fed segment by segment knows, and what its requests mean. -/

namespace Reticulum

open Resource Slots

namespace Resource

/-- A receiver that knows the origin's hashes up to its height, a whole number of segments. -/
structure Told (origin r : Resource) : Prop where
  sdu : r.info.sdu = origin.info.sdu
  total : r.info.totalParts = origin.info.totalParts
  books : r.Bookkeeping
  below : r.hashmapHeight ≤ origin.info.totalParts
  whole : r.hashmapHeight = origin.info.totalParts ∨
    r.hashmapHeight % hashmapMaxLen origin.info.sdu = 0
  entry : ∀ i < origin.info.totalParts, r.hashmap[i]? =
    if i < r.hashmapHeight then origin.hashmap[i]? else some FourBytes.zero
  filled : ∀ (i : Nat) (data : Bytes), r.receivedParts[i]? = some (some data) → i < r.hashmapHeight

/-- A link that carries at least one hash per segment, and a sender whose hashes are not zero. -/
structure Segmented (origin : Resource) : Prop where
  outgoing : origin.Outgoing
  positive : 0 < hashmapMaxLen origin.info.sdu
  nonzero : FourBytes.zero ∉ origin.hashmap

namespace Segmented

variable {origin : Resource}

/-- There are as many hashes as parts. -/
theorem length (segmented : Segmented origin) : origin.hashmap.length = origin.info.totalParts := by
  rw [segmented.outgoing.hashes, List.length_map, segmented.outgoing.count]

/-- The number of hashes in a segment. -/
theorem segment_length (segmented : Segmented origin) (segment : Nat) :
    (origin.segmentHashes segment).length =
      min ((segment + 1) * hashmapMaxLen origin.info.sdu) origin.info.totalParts -
        segment * hashmapMaxLen origin.info.sdu := by
  have length := segmented.length
  simp only [segmentHashes, List.length_drop, List.length_take]
  omega

end Segmented

/-- The height after a segment was applied. -/
def raised (origin r : Resource) (segment : Nat) : Nat :=
  max r.hashmapHeight
    (min ((segment + 1) * hashmapMaxLen origin.info.sdu) origin.info.totalParts)

namespace Told

variable {origin r : Resource} {segment : Nat}

/-- A segment that starts at or below the height starts at it, or repeats what is known. -/
theorem next_or_known (told : Told origin r)
    (below : segment * hashmapMaxLen origin.info.sdu ≤ r.hashmapHeight) :
    r.hashmapHeight = segment * hashmapMaxLen origin.info.sdu ∧
        r.hashmapHeight < origin.info.totalParts ∨
      min ((segment + 1) * hashmapMaxLen origin.info.sdu) origin.info.totalParts ≤
        r.hashmapHeight := by
  have limit := told.below
  rcases told.whole with full | aligned
  · right
    omega
  · by_cases here : r.hashmapHeight = segment * hashmapMaxLen origin.info.sdu
    · omega
    · -- The height is a whole number of segments, and one more than this at least.
      right
      obtain ⟨k, height⟩ := Nat.dvd_of_mod_eq_zero aligned
      rw [Nat.mul_comm] at height
      have beyond : segment < k := by
        apply Nat.lt_of_mul_lt_mul_right (a := hashmapMaxLen origin.info.sdu)
        omega
      have more : (segment + 1) * hashmapMaxLen origin.info.sdu ≤
          k * hashmapMaxLen origin.info.sdu := Nat.mul_le_mul_right _ beyond
      omega

/-- The zero hashes that a segment is written over are those above the height. -/
theorem countP_isZero (told : Told origin r) (segmented : Segmented origin)
    (below : segment * hashmapMaxLen origin.info.sdu ≤ r.hashmapHeight) :
    ((r.hashmap.drop (segment * hashmapMaxLen origin.info.sdu)).take
      (origin.segmentHashes segment).length).countP (·.isZero) =
        raised origin r segment - r.hashmapHeight := by
  have count := segmented.segment_length segment
  have step : (segment + 1) * hashmapMaxLen origin.info.sdu =
      segment * hashmapMaxLen origin.info.sdu + hashmapMaxLen origin.info.sdu := Nat.succ_mul _ _
  -- Every hash that is looked at stands at some index of the segment.
  have touched : ∀ stored ∈ (r.hashmap.drop (segment * hashmapMaxLen origin.info.sdu)).take
      (origin.segmentHashes segment).length, ∃ j < (origin.segmentHashes segment).length,
      r.hashmap[segment * hashmapMaxLen origin.info.sdu + j]? = some stored := by
    intro stored member
    obtain ⟨j, found⟩ := List.mem_iff_getElem?.mp member
    rw [List.getElem?_take] at found
    split at found
    · exact ⟨j, ‹_›, by simpa [List.getElem?_drop] using found⟩
    · cases found
  unfold raised
  rcases told.next_or_known below with ⟨here, room⟩ | known
  · -- At the height every entry is still zero.
    have all : ((r.hashmap.drop (segment * hashmapMaxLen origin.info.sdu)).take
        (origin.segmentHashes segment).length).countP (·.isZero) =
        ((r.hashmap.drop (segment * hashmapMaxLen origin.info.sdu)).take
          (origin.segmentHashes segment).length).length := by
      apply List.countP_eq_length.mpr
      intro stored member
      obtain ⟨j, inside, found⟩ := touched stored member
      rw [told.entry _ (by omega), if_neg (by omega)] at found
      rw [← Option.some.inj found]
      rfl
    rw [all, List.length_take, List.length_drop, told.books.sized, told.total, count]
    omega
  · -- Below the height every entry is one of the origin's, and none of those is zero.
    have none : ((r.hashmap.drop (segment * hashmapMaxLen origin.info.sdu)).take
        (origin.segmentHashes segment).length).countP (·.isZero) = 0 := by
      apply List.countP_eq_zero.mpr
      intro stored member zero
      obtain ⟨j, inside, found⟩ := touched stored member
      rw [told.entry _ (by omega), if_pos (by omega)] at found
      rw [FourBytes.isZero_iff.mp zero] at found
      exact segmented.nonzero (List.mem_of_getElem? found)
    rw [none]
    omega

/-- The height after a segment is the whole, or a whole number of segments. -/
theorem raised_whole (told : Told origin r) (segment : Nat) :
    raised origin r segment = origin.info.totalParts ∨
      raised origin r segment % hashmapMaxLen origin.info.sdu = 0 := by
  have limit := told.below
  unfold raised
  rcases Nat.le_total origin.info.totalParts
    ((segment + 1) * hashmapMaxLen origin.info.sdu) with past | inside
  · left
    omega
  · -- A segment that is not the last raises the height to its end, or leaves it.
    rcases Nat.le_total r.hashmapHeight
      ((segment + 1) * hashmapMaxLen origin.info.sdu) with raise | keep
    · right
      rw [Nat.min_eq_left inside, Nat.max_eq_right raise]
      exact Nat.mul_mod_left _ _
    · rw [Nat.min_eq_left inside, Nat.max_eq_left keep]
      exact told.whole

/-- A segment that starts at or below the height completes it, or repeats what is known. -/
theorem apply {profile : Profile} {final : Resource} {hashmapData : Bytes}
    {result : Except RnsError Unit} (segmented : Segmented origin) (told : Told origin r)
    (below : segment * hashmapMaxLen origin.info.sdu ≤ r.hashmapHeight)
    (carried : FourBytes.chunks hashmapData = origin.segmentHashes segment)
    (finished : applyHashmap profile r segment hashmapData = .ok (final, result)) :
    Told origin final ∧ final.hashmapHeight = raised origin r segment ∧
      final.receivedParts = r.receivedParts := by
  have small := segmented.outgoing.small
  have positive := segmented.positive
  have count := segmented.segment_length segment
  have sized := told.books.sized
  have step : (segment + 1) * hashmapMaxLen origin.info.sdu =
      segment * hashmapMaxLen origin.info.sdu + hashmapMaxLen origin.info.sdu := Nat.succ_mul _ _
  have limit := told.below
  have fits : segment * hashmapMaxLen r.info.sdu + (FourBytes.chunks hashmapData).length ≤
      usizeRange := by
    rw [told.sdu, carried, count]
    unfold usizeRange
    omega
  -- The segment is written over what was stored, and the zero hashes among that are counted.
  obtain ⟨-, height, counted, rfl⟩ :=
    applyHashmap_overlay sized (by rw [told.sdu]; omega) fits finished
  rw [told.sdu, carried] at counted
  have zeros := told.countP_isZero segmented below
  have next := told.next_or_known below
  have top : raised origin r segment ≤ origin.info.totalParts := by
    unfold raised
    omega
  have low : r.hashmapHeight ≤ raised origin r segment := Nat.le_max_left _ _
  rw [countHeight_ok (by rw [zeros]; unfold usizeRange; omega), zeros] at counted
  have reached : height = raised origin r segment := by
    have := Except.ok.inj counted
    omega
  subst reached
  refine ⟨?_, rfl, rfl⟩
  exact {
    sdu := told.sdu
    total := told.total
    books := { told.books with sized := by simpa using sized }
    below := top
    whole := told.raised_whole segment
    entry := by
      intro i small
      simp only [getElem?_overlay, told.sdu, carried, sized, told.total]
      have old := told.entry i small
      split
      · -- A position of the segment holds the origin's hash and lies below the new height.
        rename_i covered
        rw [if_pos (by unfold raised; omega)]
        simp only [segmentHashes, List.getElem?_drop, List.getElem?_take]
        rw [if_pos (by omega), Nat.add_sub_cancel' covered.1]
      · rename_i outside
        rw [old]
        by_cases under : i < r.hashmapHeight
        · rw [if_pos under, if_pos (by omega)]
        · rw [if_neg under, if_neg (by unfold raised; omega)]
    filled := by
      intro i data held
      exact Nat.lt_of_lt_of_le (told.filled i data held) low }

end Told

/-- The window a request of this receiver covers. -/
def scan (r : Resource) : List Nat := r.windowAt (filledPrefix r.receivedParts)

/-- The parts a request of this receiver asks for. -/
def meant (r : Resource) : List Nat := r.wanted r.scan

/-- Whether a request of this receiver asks for more of the hashmap. -/
def exhausted (r : Resource) : Bool := r.scan.any r.unknown

/-- A request of this receiver, as the sender reads it. -/
def asking (r : Resource) : PartRequest where
  lastMapHash := if r.exhausted then some (r.hashAt (r.hashmapHeight - 1)).toBytes else none
  mapHashes := r.meant.map r.hashAt

/-- The parts asked for are listed in increasing order. -/
theorem meant_sorted (r : Resource) : r.meant.Pairwise (· < ·) := by
  have window : r.scan.Pairwise (· < ·) := List.pairwise_lt_range'
  exact (window.sublist (List.takeWhile_sublist _)).filter _

/-- Each part asked for lies in the window, is missing and is not unknown. -/
theorem mem_meant {r : Resource} {i : Nat} (member : i ∈ r.meant) :
    (filledPrefix r.receivedParts ≤ i ∧ i < filledPrefix r.receivedParts + r.flow.window ∧
      i < r.info.totalParts) ∧ r.receivedParts[i]? = some none ∧ r.unknown i = false := by
  obtain ⟨taken, absent⟩ := List.mem_filter.mp member
  have known := List.mem_takeWhile_imp taken
  refine ⟨mem_windowAt.mp ((List.takeWhile_sublist _).mem taken), ?_, by simpa using known⟩
  simpa [missing] using absent

/-- The request bytes say what the receiver meant. -/
theorem buildRequest_asking {profile : Profile} {r final : Resource} {bytes : Bytes}
    (books : r.Bookkeeping)
    (known : r.exhausted = true → 0 < r.hashmapHeight ∧ r.hashmapHeight ≤ r.info.totalParts)
    (finished : buildRequest profile r = .ok (final, .ok bytes)) :
    parseRequest bytes = .ok (.ok r.asking) := by
  -- What the scan of the window collects is put behind the resource hash, in either form.
  have inside : ∀ pn ∈ r.scan, pn < r.info.totalParts :=
    fun pn member => (mem_windowAt.mp member).2.2
  have scanned := scanWindow_eq books.slots books.sized inside
    (show ([] : List MapHash).length + r.scan.length ≤ _ by
      simpa [scan] using r.windowAt_length _)
  have width := r.info.hash.length_eq
  unfold buildRequest at finished
  split at finished
  · simp at finished
  · simp only [books.next_ok profile, books.next_index, books.window_ok profile, Bind.bind,
      Except.bind] at finished
    simp only [scan] at scanned
    simp only [scanned, List.nil_append] at finished
    by_cases ends : r.exhausted = true
    · -- The last known hash stands in front of the resource hash.
      obtain ⟨positive, below⟩ := known ends
      have last := lastKnownHash_ok books profile positive below
      simp only [exhausted, scan] at ends
      simp only [ends, if_true, last] at finished
      obtain ⟨-, sameBytes⟩ := Prod.mk.inj (Except.ok.inj finished)
      obtain rfl := Except.ok.inj sameBytes
      have cut : (HASHMAP_IS_EXHAUSTED :: ((r.hashAt (r.hashmapHeight - 1)).toBytes ++
          (r.info.hash.bytes ++ (r.meant.map r.hashAt).flatMap FourBytes.toBytes))).drop
          (1 + MAPHASH_LEN + HASH_SIZE) = (r.meant.map r.hashAt).flatMap FourBytes.toBytes :=
        List.drop_left' width
      rw [parseRequest_eq]
      simp only [meant, scan] at cut
      simp only [reduceCtorEq, if_false, List.getElem?_cons_zero, if_true, cut]
      rw [if_neg (by
        simp only [List.length_cons, List.length_append, FourBytes.toBytes_length, width]
        unfold MAPHASH_LEN
        omega)]
      simp only [asking, exhausted, scan, ends, if_true, meant, FourBytes.chunks_flatMap]
      rfl
    · -- The resource hash comes first and the hashes of the parts follow.
      simp only [exhausted, scan] at ends
      simp only [ends] at finished
      obtain ⟨-, sameBytes⟩ := Prod.mk.inj (Except.ok.inj finished)
      obtain rfl := Except.ok.inj sameBytes
      have cut : (HASHMAP_IS_NOT_EXHAUSTED :: (r.info.hash.bytes ++
          (r.meant.map r.hashAt).flatMap FourBytes.toBytes)).drop (1 + HASH_SIZE) =
          (r.meant.map r.hashAt).flatMap FourBytes.toBytes :=
        List.drop_left' width
      have apart : ¬ HASHMAP_IS_NOT_EXHAUSTED = HASHMAP_IS_EXHAUSTED := by decide
      rw [parseRequest_eq]
      simp only [meant, scan] at cut
      simp only [reduceCtorEq, if_false, List.getElem?_cons_zero, Option.some.injEq, apart, cut]
      rw [if_neg (by simp only [List.length_cons, List.length_append, width]; omega)]
      simp only [asking, exhausted, scan, ends, meant, FourBytes.chunks_flatMap]
      rfl

/-- What a told receiver asks for are known parts, named by the origin's hashes. -/
theorem Told.meant_known {origin r : Resource} (told : Told origin r)
    {i : Nat} (member : i ∈ r.meant) :
    i < r.hashmapHeight ∧ origin.hashmap[i]? = some (r.hashAt i) := by
  -- A place whose hash is not known holds zero, and is not asked for.
  obtain ⟨⟨-, -, small⟩, absent, seen⟩ := mem_meant member
  rw [told.total] at small
  have entry := told.entry i small
  by_cases under : i < r.hashmapHeight
  · rw [if_pos under] at entry
    have located := List.getElem?_eq_getElem
      (show i < r.hashmap.length by rw [told.books.sized, told.total]; exact small)
    refine ⟨under, ?_⟩
    rw [← entry, located]
    simp [hashAt, located]
  · rw [if_neg under] at entry
    simp [unknown, missing, absent, entry] at seen

/-- A told receiver asks for more hashes when its window passes its height, inside the resource. -/
theorem Told.exhausted_spec {origin r : Resource} (segmented : Segmented origin)
    (told : Told origin r) (ends : r.exhausted = true) :
    r.hashmapHeight < origin.info.totalParts ∧
    r.hashmapHeight % hashmapMaxLen origin.info.sdu = 0 ∧
    r.hashmapHeight ≤ filledPrefix r.receivedParts + 74 := by
  -- The place that ended the scan holds zero, so it lies above the height and inside the window.
  obtain ⟨pn, member, unseen⟩ := List.any_eq_true.mp ends
  obtain ⟨-, high, small⟩ := mem_windowAt.mp member
  rw [told.total] at small
  simp only [unknown, Bool.and_eq_true, beq_iff_eq] at unseen
  have beyond : ¬ pn < r.hashmapHeight := by
    intro under
    have entry := told.entry pn small
    rw [if_pos under, unseen.2] at entry
    exact segmented.nonzero (List.mem_of_getElem? entry.symm)
  obtain ⟨-, -, ceiling, top⟩ := told.books.bounded.bounds
  refine ⟨by omega, ?_, by omega⟩
  rcases told.whole with full | aligned
  · omega
  · exact aligned

/-- A told receiver that has its first segment, so that it can name the end of its hashmap. -/
structure Ready (origin r : Resource) : Prop extends Told origin r where
  begun : min (hashmapMaxLen origin.info.sdu) origin.info.totalParts ≤ r.hashmapHeight

/-- Outstanding parts, waiting, timers, status and window do not matter to what is known. -/
theorem Told.touched {origin r : Resource} (told : Told origin r) {status : ResourceStatus}
    {outstanding : Nat} {waiting receiving : Bool} {flow : FlowControl} {timing : Timing}
    (bounded : flow.Bounded) : Told origin { r with
      status := status, outstandingParts := outstanding, waitingForHmu := waiting,
      receivingPart := receiving, flow := flow, timing := timing } where
  sdu := told.sdu
  total := told.total
  books := { told.books with bounded := bounded }
  below := told.below
  whole := told.whole
  entry := told.entry
  filled := told.filled

/-- A ready receiver's request says what it meant, and the receiver stays ready. -/
theorem Ready.built {profile : Profile} {origin r final : Resource}
    {result : Except RnsError Bytes} (segmented : Segmented origin) (ready : Ready origin r)
    (finished : buildRequest profile r = .ok (final, result)) :
    Ready origin final ∧ final.hashmapHeight = r.hashmapHeight ∧
      final.receivedParts = r.receivedParts ∧ final.info = r.info ∧
      ∀ bytes, result = .ok bytes → parseRequest bytes = .ok (.ok final.asking) := by
  -- What the request names is the end of the hashmap, which is there once the transfer has begun.
  have told := ready.toTold
  have parsed : ∀ bytes, result = .ok bytes → parseRequest bytes = .ok (.ok r.asking) := by
    rintro bytes rfl
    refine buildRequest_asking told.books (fun ends => ?_) finished
    obtain ⟨inside, -, -⟩ := told.exhausted_spec segmented ends
    have begun := ready.begun
    have positive := segmented.positive
    rw [told.total]
    omega
  obtain ⟨outstanding, waiting, rfl⟩ := buildRequest_frame finished
  exact ⟨{ told.touched told.books.bounded with begun := ready.begun }, rfl, rfl, rfl, parsed⟩

/-- The first segment of an advertisement, as the wire carries it. -/
theorem chunks_initialHashmap {origin : Resource} {session : Session}
    (adv : session.adv = .fromResource origin) (info : session.sender.info = origin.info) :
    FourBytes.chunks (session.initialHashmap false) = origin.segmentHashes 0 := by
  simp only [Session.initialHashmap, Bool.false_eq_true, if_false, adv, info,
    ResourceAdvertisement.hashmapSegment, ResourceAdvertisement.fromResource,
    FourBytes.chunks_flatMap, segmentHashes]

/-- Starting from the first segment makes a told receiver ready. -/
theorem Told.started {profile : Profile} {origin r final : Resource} {initialHashmap : Bytes}
    {now : Instant} {result : Except RnsError Bytes} (segmented : Segmented origin)
    (told : Told origin r) (carried : FourBytes.chunks initialHashmap = origin.segmentHashes 0)
    (finished : startReceive profile r initialHashmap now = .ok (final, result)) :
    Ready origin final ∧ final.hashmapHeight = raised origin r 0 ∧
      final.receivedParts = r.receivedParts ∧ final.info = r.info ∧
      ∀ bytes, result = .ok bytes → parseRequest bytes = .ok (.ok final.asking) := by
  -- The first segment is applied before the request is built.
  obtain ⟨applied, answer, applying, ending⟩ := startReceive_cases finished
  have touched : Told origin { r with
      status := .transferring, timing := { r.timing with lastActivity := now } } :=
    told.touched told.books.bounded
  obtain ⟨after, height, received⟩ := touched.apply segmented (by simp) carried applying
  have info : applied.info = r.info := by
    obtain ⟨hashmap, top, waiting, rfl, -⟩ := applyHashmap_frame applying
    rfl
  have ready : Ready origin applied := {
    after with
    begun := by
      rw [height]
      simp only [raised, Nat.zero_add, Nat.one_mul]
      exact Nat.le_max_right _ _ }
  obtain ⟨fault, -, rfl, rfl⟩ | ⟨-, building⟩ := ending
  · exact ⟨ready, height, received, info, by simp⟩
  · obtain ⟨asks, same, parts, kept, parsed⟩ := ready.built segmented building
    exact ⟨asks, same.trans height, parts.trans received, kept.trans info, parsed⟩

/-- A timeout leaves a ready receiver ready, and the request it repeats says what is meant. -/
theorem Ready.timedOut {profile : Profile} {origin r final : Resource} {now : Instant}
    {action : Except RnsError ResourceTimeoutAction} (segmented : Segmented origin)
    (ready : Ready origin r) (finished : checkTimeout profile r now = .ok (final, action)) :
    Ready origin final ∧ final.hashmapHeight = r.hashmapHeight ∧
      final.receivedParts = r.receivedParts ∧ final.info = r.info ∧
      ∀ bytes, Session.retried action = .ok bytes → parseRequest bytes = .ok (.ok final.asking) := by
  -- Of all timeouts only the transfer's builds a request, and from a smaller window.
  have told := ready.toTold
  obtain ⟨rfl, rfl⟩ | ⟨rfl, rfl⟩ | ⟨retries, advRetries, rfl, rfl | rfl⟩ |
    ⟨-, retries, flow, request, shrunk, asked, rfl⟩ := checkTimeout_cases finished
  · exact ⟨ready, rfl, rfl, rfl, by simp [Session.retried]⟩
  · exact ⟨{ told.touched told.books.bounded with begun := ready.begun }, rfl, rfl, rfl,
      by simp [Session.retried]⟩
  · exact ⟨{ told.touched told.books.bounded with begun := ready.begun }, rfl, rfl, rfl,
      by simp [Session.retried]⟩
  · exact ⟨{ told.touched told.books.bounded with begun := ready.begun }, rfl, rfl, rfl,
      by simp [Session.retried]⟩
  · obtain ⟨smaller, same, bounded, -⟩ := told.books.bounded.shrink profile
    obtain rfl := Except.ok.inj (same.symm.trans shrunk)
    have waiting : Ready origin { r with
        flow := smaller, waitingForHmu := false,
        timing := { r.timing with retriesLeft := retries } } :=
      { told.touched bounded with begun := ready.begun }
    obtain ⟨asks, height, parts, info, parsed⟩ := waiting.built segmented asked
    refine ⟨asks, height, parts, info, ?_⟩
    cases request with
    | ok sent =>
      intro bytes same
      obtain rfl := Except.ok.inj same
      exact parsed sent rfl
    | error fault => simp [Session.retried, Except.map]

end Resource

end Reticulum
