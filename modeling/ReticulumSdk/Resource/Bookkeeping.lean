import ReticulumSdk.Resource.ReceiverLaws
import ReticulumSdk.Resource.SenderLaws

/-! A receiver's counters agree with its buffer in every state its operations reach. -/

namespace Reticulum

open Resource Slots

namespace Resource

/-- The counters of a receiver describe its buffer, and its window lies in its bounds. -/
structure Bookkeeping (r : Resource) : Prop where
  small : r.info.totalParts * 24 < isizeRange
  slots : r.receivedParts.length = r.info.totalParts
  sized : r.hashmap.length = r.info.totalParts
  count : r.receivedCount = filledCount r.receivedParts
  height : r.consecutiveCompletedHeight + 1 = (filledPrefix r.receivedParts : Int)
  bounded : r.flow.Bounded

/-- A new receiver has nothing received and nothing counted. -/
theorem newFromAdvertisement_bookkeeping {profile : Profile} {adv : ResourceAdvertisement}
    {linkMdu : Nat} {rtt : Duration} {requestId : Option Bytes} {now : Instant} {r : Resource}
    (created : newFromAdvertisement profile adv linkMdu rtt requestId now = .ok r) :
    r.Bookkeeping := by
  -- A new receiver has no part, and counts none.
  simp only [newFromAdvertisement, bind_eq_ok] at created
  obtain ⟨bytes, -, _, -, _, allocated, made⟩ := created
  obtain rfl := Except.ok.inj made
  have empty : filledPrefix (List.replicate adv.numParts (none : Option Bytes)) = 0 := by
    cases adv.numParts <;> rfl
  exact {
    small := lt_of_allocate allocated
    slots := by simp
    sized := by simp
    count := by simp [filledCount, List.countP_replicate]
    height := by simp [empty]
    bounded := FlowControl.initial_bounded }

namespace Bookkeeping

variable {profile : Profile} {r final : Resource}

/-- The completed prefix ends inside the resource. -/
theorem prefix_le (books : r.Bookkeeping) : filledPrefix r.receivedParts ≤ r.info.totalParts :=
  books.slots ▸ filledPrefix_le_length r.receivedParts

/-- The first part not completed yet is computed without overflow. -/
theorem next_ok (books : r.Bookkeeping) (profile : Profile) :
    profile.addSigned r.consecutiveCompletedHeight 1 =
      .ok (filledPrefix r.receivedParts : Int) := by
  -- The height is one below the filled prefix, which is no longer than the slots.
  have inside := books.prefix_le
  have small := books.small
  have height := books.height
  unfold isizeRange at small
  rw [Profile.addSigned_ok profile (by unfold isizeRange; omega) (by unfold isizeRange; omega),
    height]

/-- The first part not completed yet keeps its value as an index. -/
theorem next_index (books : r.Bookkeeping) :
    asUsize (filledPrefix r.receivedParts : Int) = filledPrefix r.receivedParts := by
  have inside := books.prefix_le
  have small := books.small
  exact asUsize_natCast (by unfold isizeRange at small; unfold usizeRange; omega)

/-- The window after the completed prefix is computed without overflow. -/
theorem window_ok (books : r.Bookkeeping) (profile : Profile) :
    r.windowFrom profile (filledPrefix r.receivedParts) =
      .ok (r.windowAt (filledPrefix r.receivedParts)) := by
  have inside := books.prefix_le
  have small := books.small
  obtain ⟨-, -, ceiling, high⟩ := books.bounded.bounds
  exact windowFrom_eq (by unfold isizeRange at small; unfold usizeRange; omega)

end Bookkeeping

/-- A receiver with one more part in its buffer and its counters moved on. -/
def withPart (r : Resource) (i : Nat) (partData : Bytes) (grown : FlowControl)
    (rttRxdBytes : Nat) : Resource :=
  let receivedParts := r.receivedParts.set i (some partData)
  { r with
    receivedParts := receivedParts
    receivedCount := r.receivedCount + 1
    outstandingParts := r.outstandingParts - 1
    consecutiveCompletedHeight := (filledPrefix receivedParts : Int) - 1
    flow := grown
    timing := { r.timing with rttRxdBytes := rttRxdBytes } }

/-- Accepting a part into an empty slot can only fail on its byte counter. -/
theorem acceptPart_eq {r : Resource} (books : r.Bookkeeping) (profile : Profile) {i : Nat}
    (partData : Bytes) (empty : r.receivedParts[i]? = some none) :
    ∃ grown : FlowControl, grown.Bounded ∧ acceptPart profile r i partData =
      (profile.add usizeRange r.timing.rttRxdBytes partData.length).map
        (r.withPart i partData grown) := by
  have small := books.small
  have slots := books.slots
  have fewer := filledCount_lt_length empty
  have count : profile.add usizeRange r.receivedCount 1 = .ok (r.receivedCount + 1) := by
    refine Profile.add_ok profile ?_
    rw [books.count]
    unfold isizeRange at small
    unfold usizeRange
    omega
  obtain ⟨grown, grew, kept⟩ := books.bounded.growWhenIdle profile (r.outstandingParts - 1)
  -- The height before the loop: one more than the prefix when the part continues it.
  have longer := filledPrefix_le_set partData empty
  have inside := filledPrefix_le_length (r.receivedParts.set i (some partData))
  rw [List.length_set, slots] at inside
  have climbed : advanceHeight profile (r.receivedParts.set i (some partData)) r.info.totalParts
      r.info.totalParts (if (i : Int) = (filledPrefix r.receivedParts : Int) then (i : Int)
        else r.consecutiveCompletedHeight) =
      .ok ((filledPrefix (r.receivedParts.set i (some partData)) : Int) - 1) := by
    have sized : (r.receivedParts.set i (some partData)).length = r.info.totalParts := by
      simpa using slots
    have bound : r.info.totalParts < isizeRange := by unfold isizeRange at *; omega
    have height := books.height
    by_cases continues : i = filledPrefix r.receivedParts
    · have extended := filledPrefix_lt_set partData (continues ▸ empty)
      rw [← continues] at extended
      rw [if_pos (by rw [continues])]
      have start : (i : Int) = ((i + 1 : Nat) : Int) - 1 := by omega
      rw [start]
      exact advanceHeight_eq sized bound (by omega) (by omega)
    · rw [if_neg (by omega)]
      have start : r.consecutiveCompletedHeight = (filledPrefix r.receivedParts : Int) - 1 := by omega
      rw [start]
      exact advanceHeight_eq sized bound longer (by omega)
  -- Only the count of received bytes is left to overflow.
  refine ⟨grown, kept, ?_⟩
  unfold acceptPart
  cases profile.add usizeRange r.timing.rttRxdBytes partData.length with
  | error fault => rfl
  | ok bytes =>
    simp only [count, books.next_ok profile, climbed, grew, Bind.bind, Except.bind]
    rfl

/-- The slot of the window a part goes to, if there is one. -/
def target (r : Resource) (partData : Bytes) : Option Nat :=
  (r.windowAt (filledPrefix r.receivedParts)).find? fun i =>
    r.hashmap[i]? == some (mapHashOf partData r.info.randomHash) && r.missing i

/-- The target is a missing part of the window with the part's hash. -/
theorem target_spec {r : Resource} {partData : Bytes} {i : Nat}
    (found : r.target partData = some i) :
    i < r.info.totalParts ∧ r.hashmap[i]? = some (mapHashOf partData r.info.randomHash) ∧
      r.receivedParts[i]? = some none := by
  have inside := mem_windowAt.mp (List.mem_of_find?_eq_some found)
  have chosen := List.find?_some found
  simp only [missing, Bool.and_eq_true, beq_iff_eq] at chosen
  exact ⟨inside.2.2, chosen.1, chosen.2⟩

/-- The search of a live receiver accepts the part at its target. -/
theorem searchPart_eq {r : Resource} (books : r.Bookkeeping) (profile : Profile)
    (partData : Bytes) :
    searchPart profile r partData =
      if r.status = .failed then .ok (r, false)
      else match r.target partData with
        | none => .ok ({ r with status := .transferring }, false)
        | some i => (acceptPart profile { r with status := .transferring } i partData).map
            fun placed => (placed, true) := by
  -- The search starts behind the filled prefix, and the window stays among the parts.
  unfold searchPart
  split
  · rfl
  · have start : max 0 (filledPrefix r.receivedParts : Int) = filledPrefix r.receivedParts := by omega
    have live : Bookkeeping { r with status := .transferring } := { books with }
    have inside : ∀ i ∈ windowAt { r with status := .transferring } (filledPrefix r.receivedParts),
        i < r.info.totalParts := fun i member => (mem_windowAt.mp member).2.2
    simp only [books.next_ok profile, start, books.next_index, live.window_ok profile, Bind.bind,
      Except.bind]
    exact placePart_eq live.slots live.sized inside

/-- A received part is turned away, finds no slot, or fills the one it was meant for. -/
theorem receivePart_cases {profile : Profile} {r final : Resource} {partData : Bytes}
    {now : Instant} {found : Bool} (books : r.Bookkeeping)
    (finished : receivePart profile r partData now = .ok (final, found)) :
    ∃ timing flow, flow.Bounded ∧
      ((r.status = .failed ∧ found = false ∧ final = { r with
          receivingPart := false, timing := timing, flow := flow }) ∨
        (r.status ≠ .failed ∧ found = false ∧ final = { r with
          status := .transferring, receivingPart := false, timing := timing, flow := flow }) ∨
        (r.status ≠ .failed ∧ found = true ∧ ∃ i grown bytes, i < r.info.totalParts ∧
          r.hashmap[i]? = some (mapHashOf partData r.info.randomHash) ∧
          r.receivedParts[i]? = some none ∧ grown.Bounded ∧
          final = { withPart { r with status := .transferring, timing := timing, flow := flow }
            i partData grown bytes with receivingPart := false })) := by
  simp only [receivePart, bind_eq_ok] at finished
  obtain ⟨measured, measuring, ⟨placed, hit⟩, searching, finished⟩ := finished
  obtain ⟨rfl, rfl⟩ := Prod.mk.inj (Except.ok.inj finished)
  -- Measuring touches the timing and the flow only, so the search starts from the same books.
  obtain ⟨timing, flow, rfl, bounded⟩ := measureResponse_frame (by exact books.bounded) measuring
  refine ⟨timing, flow, bounded, ?_⟩
  have kept : Bookkeeping { r with receivingPart := true, timing := timing, flow := flow } :=
    { books with bounded := bounded }
  rw [searchPart_eq kept] at searching
  split at searching
  · rename_i failed
    obtain ⟨rfl, rfl⟩ := Prod.mk.inj (Except.ok.inj searching)
    exact .inl ⟨failed, rfl, rfl⟩
  · rename_i live
    split at searching
    · obtain ⟨rfl, rfl⟩ := Prod.mk.inj (Except.ok.inj searching)
      exact .inr (.inl ⟨live, rfl, rfl⟩)
    · rename_i i aimed
      obtain ⟨inside, hash, empty⟩ := target_spec aimed
      have moving : Bookkeeping { r with
          status := .transferring, receivingPart := true, timing := timing, flow := flow } :=
        { kept with }
      obtain ⟨grown, within, accepted⟩ := acceptPart_eq moving profile partData empty
      rw [accepted] at searching
      cases counted : profile.add usizeRange timing.rttRxdBytes partData.length with
      | error fault => simp [counted, Except.map] at searching
      | ok bytes =>
        simp only [counted, Except.map, Except.ok.injEq, Prod.mk.injEq] at searching
        obtain ⟨rfl, rfl⟩ := searching
        exact .inr (.inr ⟨live, rfl, i, grown, bytes, inside, hash, empty, within, rfl⟩)

/-- Whatever a receiver held, it still holds. -/
def Keeps (r final : Resource) : Prop :=
  ∀ (i : Nat) (data : Bytes), r.receivedParts[i]? = some (some data) →
    final.receivedParts[i]? = some (some data)

/-- A receiver that lost nothing has completed at least as much. -/
theorem Keeps.prefix_le {r final : Resource} (kept : r.Keeps final) :
    filledPrefix r.receivedParts ≤ filledPrefix final.receivedParts := by
  apply le_filledPrefix_iff.mpr
  intro i small
  obtain ⟨data, held⟩ := le_filledPrefix_iff.mp (Nat.le_refl _) i small
  exact ⟨data, kept i data held⟩

/-- Filling the target of a part keeps the books and every part held before. -/
theorem Bookkeeping.withPart {r : Resource} (books : r.Bookkeeping) {i : Nat} (partData : Bytes)
    {grown : FlowControl} (bytes : Nat) (empty : r.receivedParts[i]? = some none)
    (within : grown.Bounded) :
    (r.withPart i partData grown bytes).Bookkeeping ∧
      r.Keeps (r.withPart i partData grown bytes) := by
  -- One empty slot is filled, which is one part more and no part less.
  refine ⟨?_, fun j data held => getElem?_set_of_filled empty held⟩
  exact {
    small := books.small
    slots := by simpa [Resource.withPart] using books.slots
    sized := books.sized
    count := by simp [Resource.withPart, filledCount_set partData empty, books.count]
    height := by simp [Resource.withPart]
    bounded := within }

/-- With a height inside the hashmap, the last known hash is the one below it. -/
theorem lastKnownHash_ok {r : Resource} (books : r.Bookkeeping) (profile : Profile)
    (positive : 0 < r.hashmapHeight) (below : r.hashmapHeight ≤ r.info.totalParts) :
    r.lastKnownHash profile = .ok (r.hashAt (r.hashmapHeight - 1)).toBytes := by
  have small := books.small
  have located := List.getElem?_eq_getElem
    (show r.hashmapHeight - 1 < r.hashmap.length by rw [books.sized]; omega)
  -- The source goes through the byte position, which is inside the machine's range.
  have product : profile.mul usizeRange (r.hashmapHeight - 1) MAPHASH_LEN =
      .ok ((r.hashmapHeight - 1) * MAPHASH_LEN) :=
    Profile.mul_ok profile (by unfold MAPHASH_LEN usizeRange; unfold isizeRange at small; omega)
  have back : (r.hashmapHeight - 1) * MAPHASH_LEN / MAPHASH_LEN = r.hashmapHeight - 1 :=
    Nat.mul_div_cancel _ (by decide)
  simp only [lastKnownHash, positive, if_true, product, back, index_ok located, Bind.bind, Except.bind]
  simp [hashAt, located, pure, Except.pure]

/-- A receiver that does not wait for hashes can build a request. -/
theorem buildRequest_ok {r : Resource} (books : r.Bookkeeping) (profile : Profile)
    (idle : r.waitingForHmu = false) (below : r.hashmapHeight ≤ r.info.totalParts) :
    ∃ final bytes, buildRequest profile r = .ok (final, .ok bytes) := by
  -- The window lies inside the resource, so every part and every hash in it can be read.
  have scanned := scanWindow_eq books.slots books.sized
    (fun pn (member : pn ∈ r.windowAt (filledPrefix r.receivedParts)) => (mem_windowAt.mp member).2.2)
    (show ([] : List MapHash).length + (r.windowAt _).length ≤ _ by simpa using r.windowAt_length _)
  have last : ∃ lastHash, r.lastKnownHash profile = .ok lastHash := by
    by_cases positive : 0 < r.hashmapHeight
    · exact ⟨_, lastKnownHash_ok books profile positive below⟩
    · exact ⟨[], by rw [lastKnownHash, if_neg positive]⟩
  obtain ⟨lastHash, last⟩ := last
  simp only [buildRequest, idle, Bool.false_eq_true, if_false, books.next_ok profile, books.next_index,
    books.window_ok profile, scanned, last, Bind.bind, Except.bind]
  split
  · exact ⟨_, _, rfl⟩
  · exact ⟨_, _, rfl⟩

/-- Building a request keeps the books. -/
theorem buildRequest_books {profile : Profile} {r final : Resource} (books : r.Bookkeeping)
    {result : Except RnsError Bytes} (finished : buildRequest profile r = .ok (final, result)) :
    final.Bookkeeping ∧ r.Keeps final := by
  obtain ⟨outstanding, waiting, rfl⟩ := buildRequest_frame finished
  exact ⟨{ books with }, fun i data held => held⟩

/-- Applying a hashmap keeps the books, whatever the peer put into it. -/
theorem applyHashmap_books {profile : Profile} {r final : Resource} (books : r.Bookkeeping)
    {segment : Nat} {hashmapData : Bytes} {result : Except RnsError Unit}
    (finished : applyHashmap profile r segment hashmapData = .ok (final, result)) :
    final.Bookkeeping ∧ r.Keeps final := by
  obtain ⟨hashmap, height, waiting, rfl, same⟩ := applyHashmap_frame finished
  exact ⟨{ books with sized := same.trans books.sized }, fun i data held => held⟩

/-- Every operation keeps the books and every part held before. -/
theorem perform_books {profile : Profile} {r final : Resource} {op : Op} (books : r.Bookkeeping)
    (finished : perform profile r op = .ok final) : final.Bookkeeping ∧ r.Keeps final := by
  cases op with
  | startReceive initialHashmap now =>
    obtain ⟨⟨built, result⟩, starting, rfl⟩ := map_eq_ok.mp finished
    -- A start applies the hashmap and then builds a request.
    obtain ⟨applied, answer, applying, ending⟩ := startReceive_cases starting
    have started : Bookkeeping { r with
        status := .transferring, timing := { r.timing with lastActivity := now } } := { books with }
    obtain ⟨kept, held⟩ := applyHashmap_books started applying
    obtain ⟨-, -, rfl, -⟩ | ⟨-, building⟩ := ending
    · exact ⟨kept, held⟩
    · obtain ⟨ends, later⟩ := buildRequest_books kept building
      exact ⟨ends, fun i data before => later i data (held i data before)⟩
  | applyHashmap segment hashmapData =>
    obtain ⟨⟨applied, answer⟩, applying, rfl⟩ := map_eq_ok.mp finished
    exact applyHashmap_books books applying
  | buildRequest =>
    obtain ⟨⟨built, result⟩, building, rfl⟩ := map_eq_ok.mp finished
    exact buildRequest_books books building
  | receivePart partData now =>
    obtain ⟨⟨placed, found⟩, receiving, rfl⟩ := map_eq_ok.mp finished
    -- A part is refused, not found, or placed in an empty slot.
    obtain ⟨timing, flow, bounded, ⟨-, -, rfl⟩ | ⟨-, -, rfl⟩ |
      ⟨-, -, i, grown, bytes, -, -, empty, within, rfl⟩⟩ := receivePart_cases books receiving
    · exact ⟨{ books with bounded := bounded }, fun i data held => held⟩
    · exact ⟨{ books with bounded := bounded }, fun i data held => held⟩
    · have moving : Bookkeeping { r with
          status := .transferring, timing := timing, flow := flow } :=
        { books with bounded := bounded }
      obtain ⟨kept, held⟩ := moving.withPart partData bytes empty within
      exact ⟨{ kept with }, held⟩
  | handleRequest requestData packetHash now =>
    obtain ⟨⟨answered, result⟩, handling, rfl⟩ := map_eq_ok.mp finished
    obtain ⟨status, parts, sentParts, height, hashes, rtt, active, last, retries, rfl, -⟩ :=
      handleRequest_frame handling
    exact ⟨{ books with }, fun i data held => held⟩
  | setStatus status =>
    obtain rfl := Except.ok.inj finished
    exact ⟨{ books with }, fun i data held => held⟩
  | checkTimeout now =>
    obtain ⟨⟨checked, action⟩, checking, rfl⟩ := map_eq_ok.mp finished
    obtain ⟨rfl, -⟩ | ⟨rfl, -⟩ | ⟨retries, advRetries, rfl, -⟩ |
      ⟨-, retries, flow, request, shrunk, asked, -⟩ := checkTimeout_cases checking
    · exact ⟨books, fun i data held => held⟩
    · exact ⟨{ books with }, fun i data held => held⟩
    · exact ⟨{ books with }, fun i data held => held⟩
    · -- Only a part request that is made again touches the flow, which shrinks within its bounds.
      obtain ⟨flow', same, bounded, -⟩ := books.bounded.shrink profile
      obtain rfl := Except.ok.inj (same.symm.trans shrunk)
      have retried : Bookkeeping { r with
          flow := flow', waitingForHmu := false,
          timing := { r.timing with retriesLeft := retries } } := { books with bounded := bounded }
      obtain ⟨kept, held⟩ := buildRequest_books retried asked
      exact ⟨kept, held⟩

/-- Along every run the books stay right and nothing held is lost. -/
theorem run_books {profile : Profile} {r final : Resource} {ops : List Op} (books : r.Bookkeeping)
    (run : Run (Steps profile) r ops final) : final.Bookkeeping ∧ r.Keeps final := by
  -- One operation keeps the books and every part held, so a run of them does.
  induction run with
  | done state => exact ⟨books, fun i data held => held⟩
  | next first rest ih =>
    obtain ⟨kept, held⟩ := perform_books books first
    obtain ⟨ends, later⟩ := ih kept
    exact ⟨ends, fun i data before => later i data (held i data before)⟩

/-- The adjustments of a window finish with overflow checks on, so nothing in them underflows. -/
def AdjustsSafely (flow : FlowControl) : Prop :=
  (∃ shrunk, flow.shrink .debug = .ok shrunk) ∧
    ∀ outstanding, ∃ grown, flow.growWhenIdle .debug outstanding = .ok grown

/-- A window inside its bounds is adjusted safely. -/
theorem adjustsSafely_of_bounded {flow : FlowControl} (bounded : flow.Bounded) :
    AdjustsSafely flow := by
  constructor
  · obtain ⟨shrunk, finished, -⟩ := bounded.shrink .debug
    exact ⟨shrunk, finished⟩
  · intro outstanding
    obtain ⟨grown, finished, -⟩ := bounded.growWhenIdle .debug outstanding
    exact ⟨grown, finished⟩

/--
In every state a receiver reaches, its counters describe its buffer and its window is in bounds.
From there on the completed height never falls, no received part is overwritten, and no window
adjustment underflows, before or after a rate promotion.
-/
theorem receiver_bookkeeping {profile : Profile} {adv : ResourceAdvertisement} {linkMdu : Nat}
    {rtt : Duration} {requestId : Option Bytes} {now : Instant} {created r : Resource}
    {ops : List Op}
    (built : newFromAdvertisement profile adv linkMdu rtt requestId now = .ok created)
    (run : Run (Steps profile) created ops r) :
    r.receivedCount = r.receivedParts.countP Option.isSome ∧
    r.consecutiveCompletedHeight + 1 = (filledPrefix r.receivedParts : Int) ∧
    (2 ≤ r.flow.windowMin ∧ r.flow.windowMin ≤ r.flow.window ∧
      r.flow.window ≤ r.flow.windowMax ∧ r.flow.windowMax ≤ 75) ∧
    (AdjustsSafely r.flow ∧ ∀ rate promoted, r.flow.countFastRound profile rate = .ok promoted →
      AdjustsSafely promoted) ∧
    ∀ more final, Run (Steps profile) r more final →
      r.consecutiveCompletedHeight ≤ final.consecutiveCompletedHeight ∧
      ∀ (i : Nat) (data : Bytes), r.receivedParts[i]? = some (some data) →
        final.receivedParts[i]? = some (some data) := by
  obtain ⟨books, -⟩ := run_books (newFromAdvertisement_bookkeeping built) run
  refine ⟨books.count, books.height, books.bounded.bounds,
    ⟨adjustsSafely_of_bounded books.bounded, ?_⟩, ?_⟩
  · intro rate promoted counted
    obtain ⟨raised, same, bounded⟩ := books.bounded.countFastRound profile rate
    obtain rfl := Except.ok.inj (same.symm.trans counted)
    exact adjustsSafely_of_bounded bounded
  · intro more final later
    obtain ⟨ends, kept⟩ := run_books books later
    refine ⟨?_, kept⟩
    -- The completed heights are the two prefixes, and the second buffer holds all of the first.
    have longer := Keeps.prefix_le kept
    have before := books.height
    have after := ends.height
    omega

/-- An advertisement of two parts under a salt of zeros. -/
def twoParts : ResourceAdvertisement where
  transferSize := 3
  dataSize := 3
  numParts := 2
  hash := .newEmpty
  randomHash := .zero
  originalHash := .newEmpty
  hashmap := []
  flags := 0
  segmentIndex := 1
  totalSegments := 1
  requestId := none

/-- What its receiver goes through: the second part first, a timeout, and a stray part. -/
private def outOfOrder : List Op :=
  [.startReceive ((mapHashOf [1, 2] .zero).toBytes ++ (mapHashOf [3] .zero).toBytes) 0,
    .receivePart [3] 1, .checkTimeout 1000000000000, .receivePart [9] 2]

/-- A receiver that took the second part first has counted it and no prefix. -/
theorem receiver_bookkeeping_out_of_order :
    ∃ created r, newFromAdvertisement .debug twoParts 200 0 none 0 = .ok created ∧
      Run (Steps .debug) created outOfOrder r ∧ r.receivedParts = [none, some [3]] ∧
      r.receivedCount = r.receivedParts.countP Option.isSome := by
  -- The run is evaluated once; the theorem then speaks of the state it reached.
  have evaluated : passes (newFromAdvertisement .debug twoParts 200 0 none 0) (fun created =>
      passes (performAll .debug created outOfOrder)
        fun r => decide (r.receivedParts = [none, some [3]])) = true := by
    decide +kernel
  obtain ⟨created, built, passed⟩ := exists_of_passes evaluated
  obtain ⟨r, finished, held⟩ := exists_of_passes passed
  have run := run_iff_performAll.mpr finished
  exact ⟨created, r, built, run, of_decide_eq_true held, (receiver_bookkeeping built run).1⟩

end Resource

end Reticulum
