import ReticulumSdk.Resource.Bookkeeping
import ReticulumSdk.Resource.StateLaws

/-! Exactly which calls on a reachable resource run into a bad index or an overflow. -/

namespace Reticulum

open Resource Slots

/-- A computation stopped by a bad index or an arithmetic check. -/
def Stops {α : Type} (outcome : Outcome α) : Prop :=
  outcome = .error .indexOutOfBounds ∨ outcome = .error .arithmeticOverflow

@[simp] theorem not_stops_ok {α : Type} (value : α) : ¬ Stops (.ok value) := by
  simp [Stops]

@[simp] theorem stops_index {α : Type} : Stops (.error .indexOutOfBounds : Outcome α) := .inl rfl

@[simp] theorem stops_arithmetic {α : Type} : Stops (.error .arithmeticOverflow : Outcome α) :=
  .inr rfl

/-- Mapping the result of a computation does not change whether it stops. -/
@[simp] theorem stops_map {α β : Type} {outcome : Outcome α} {f : α → β} :
    Stops (f <$> outcome) ↔ Stops outcome := by
  simp [Stops, map_eq_error]

/-- Float durations are rejected with a panic of their own. -/
theorem fromSecsF64_error {secs : Float} {fault : Panic}
    (stopped : Duration.fromSecsF64 secs = .error fault) : fault = .durationOutOfRange := by
  -- The first and the last exit panic, in the same way.
  unfold Duration.fromSecsF64 at stopped
  simp only at stopped
  split at stopped
  · exact (Except.error.inj stopped).symm
  · split at stopped
    · cases stopped
    · split at stopped
      · cases stopped
      · split at stopped
        · cases stopped
        · exact (Except.error.inj stopped).symm

namespace Resource

/-- A sender with parts: it holds no receive buffer at all. -/
structure Sending (r : Resource) : Prop where
  small : r.info.totalParts * 24 < isizeRange
  sized : r.hashmap.length = r.info.totalParts
  bounded : r.flow.Bounded
  bare : r.receivedParts = []
  height : r.consecutiveCompletedHeight = -1
  some : 0 < r.info.totalParts

namespace Sending

variable {r : Resource}

/-- Nothing was received, so the window of a sender begins at its first part. -/
theorem next_ok (sending : r.Sending) :
    Profile.debug.addSigned r.consecutiveCompletedHeight 1 = .ok 0 := by
  rw [sending.height]
  rfl

/-- The window of a sender ends inside the machine's range. -/
theorem window_fits (sending : r.Sending) : 0 + r.flow.window < usizeRange := by
  obtain ⟨low, floor, ceiling, high⟩ := sending.bounded.bounds
  unfold usizeRange
  omega

/-- A sender has no slot for any of its parts. -/
theorem slots_ne (sending : r.Sending) : r.receivedParts.length ≠ r.info.totalParts := by
  have some := sending.some
  rw [sending.bare, List.length_nil]
  omega

end Sending

/-- What holds of every resource in use, in either role. -/
structure Sound (r : Resource) : Prop where
  mdu : r.info.sdu < usizeRange
  idle : r.timing.reqSent = none
  known : r.hashmapHeight < usizeRange
  start : r.receiverMinConsecutiveHeight ≤ r.info.totalParts
  fewer : r.parts.length ≤ r.info.totalParts
  counted : r.sentParts = r.parts.countP (·.sent)
  role : r.Bookkeeping ∨ r.Sending

namespace Sound

variable {r : Resource}

theorem small (sound : r.Sound) : r.info.totalParts < 2 ^ 60 := by
  -- Both roles have room for that many slots in memory.
  have bound : r.info.totalParts * 24 < 2 ^ 63 := by
    rcases sound.role with books | sending
    · exact books.small
    · exact sending.small
  omega

theorem sized (sound : r.Sound) : r.hashmap.length = r.info.totalParts := by
  rcases sound.role with books | sending
  · exact books.sized
  · exact sending.sized

theorem bounded (sound : r.Sound) : r.flow.Bounded := by
  rcases sound.role with books | sending
  · exact books.bounded
  · exact sending.bounded

/-- A resource with a slot for every part is a receiver. -/
theorem books (sound : r.Sound) (slots : r.receivedParts.length = r.info.totalParts) :
    r.Bookkeeping := by
  -- A sender has no slots, but at least one part.
  rcases sound.role with books | sending
  · exact books
  · have some := sending.some
    rw [sending.bare, List.length_nil] at slots
    omega

end Sound

/-- A request can be built: every part has a slot, and the last known hash exists if needed. -/
def BuildSafe (r : Resource) (window : Nat) : Prop :=
  r.receivedParts.length = r.info.totalParts ∧
    (r.hashmapHeight ≤ r.info.totalParts ∨
      ∀ pn, (r.consecutiveCompletedHeight + 1).toNat ≤ pn →
        pn < (r.consecutiveCompletedHeight + 1).toNat + window → pn < r.info.totalParts →
        ¬ (r.receivedParts[pn]? = some none ∧ r.hashmap[pn]? = some FourBytes.zero))

/-- Hashes can be applied: their indices and the height stay inside the machine's range. -/
def ApplySafe (r : Resource) (segment : Nat) (hashes : List MapHash) : Prop :=
  let start := segment * hashmapMaxLen r.info.sdu
  hashes = [] ∨ (start + hashes.length ≤ usizeRange ∧
    r.hashmapHeight + ((r.hashmap.drop start).take hashes.length).countP (·.isZero) < usizeRange)

/-- A part can be searched for: it matches nothing in the window, or it meets a real slot. -/
def PlaceSafe (r : Resource) (partData : Bytes) : Prop :=
  let start := (r.consecutiveCompletedHeight + 1).toNat
  let matched := fun i => start ≤ i ∧ i < start + r.flow.window ∧ i < r.info.totalParts ∧
    r.hashmap[i]? = some (mapHashOf partData r.info.randomHash)
  (∀ i, ¬ matched i) ∨
    (r.receivedParts.length = r.info.totalParts ∧
      (r.timing.rttRxdBytes + partData.length < usizeRange ∨
        ∀ i, matched i → r.receivedParts[i]? ≠ some none))

/-- The calls that neither index out of range nor overflow, by the state before them. -/
def CallSafe (r : Resource) : Op → Prop
  | .startReceive initialHashmap _ =>
    let hashes := FourBytes.chunks initialHashmap
    hashmapMaxLen r.info.sdu = 0 ∨ (r.ApplySafe 0 hashes ∧
      BuildSafe { r with
        hashmap := overlay r.hashmap 0 hashes
        hashmapHeight := r.hashmapHeight + (r.hashmap.take hashes.length).countP (·.isZero) }
        r.flow.window)
  | .applyHashmap segment hashmapData =>
    hashmapMaxLen r.info.sdu = 0 ∨ r.ApplySafe segment (FourBytes.chunks hashmapData)
  | .buildRequest => r.waitingForHmu = true ∨ r.BuildSafe r.flow.window
  | .receivePart partData _ => r.status = .failed ∨ r.PlaceSafe partData
  | .handleRequest _ _ _ | .setStatus _ => True
  | .checkTimeout now =>
    r.status ≠ .transferring ∨ r.timing.retriesLeft = 0 ∨
    (∀ wait, r.partTimeout = .ok wait → expired r.timing.lastActivity wait now = false) ∨
    r.BuildSafe (if r.flow.window > r.flow.windowMin then r.flow.window - 1 else r.flow.window)

/-- With overflow checks on, a height is counted exactly or not at all. -/
theorem countHeight_debug {touched : List MapHash} {height : Nat} (small : height < usizeRange) :
    countHeight .debug touched height =
      if height + touched.countP (·.isZero) < usizeRange
      then .ok (height + touched.countP (·.isZero)) else .error .arithmeticOverflow := by
  -- The count panics at the first zero that overflows it, whatever comes after.
  induction touched generalizing height with
  | nil => simp [countHeight, small, pure, Except.pure]
  | cons stored rest ih =>
    simp only [countHeight, List.foldlM_cons, nextHeight, List.countP_cons, Bind.bind, Except.bind]
    by_cases zero : stored.isZero = true
    · simp only [zero, if_true, Profile.add, Profile.fit]
      by_cases fits : height + 1 < usizeRange
      · have counted := ih fits
        simp only [countHeight] at counted
        simp only [fits, if_true, counted]
        rw [show height + 1 + rest.countP (·.isZero) = height + (rest.countP (·.isZero) + 1) by omega]
      · rw [if_neg fits, if_neg (by omega)]
    · have counted := ih small
      simp only [countHeight] at counted
      simp [zero, counted]

/-- Counting one hash finishes or overflows. -/
private theorem nextHeight_debug (height : Nat) (stored : MapHash) :
    (∃ next, nextHeight .debug height stored = .ok next) ∨
      nextHeight .debug height stored = .error .arithmeticOverflow := by
  -- Only a place that was zero adds anything.
  unfold nextHeight Profile.add Profile.fit
  split
  · split
    · exact .inl ⟨_, rfl⟩
    · exact .inr rfl
  · exact .inl ⟨_, rfl⟩

/-- Hashes whose indices leave the machine's range stop the loop. -/
theorem applyHashes_overflow {segment hml i : Nat} {hashes : List MapHash} {r : Resource}
    (sized : r.hashmap.length = r.info.totalParts) (nonempty : hashes ≠ [])
    (large : usizeRange < segment * hml + i + hashes.length) :
    Stops (applyHashes .debug segment hml i hashes r) := by
  induction hashes generalizing i r with
  | nil => exact absurd rfl nonempty
  | cons mapHash rest ih =>
    simp only [List.length_cons] at large
    simp only [applyHashes, Profile.mul, Profile.add, Profile.fit]
    by_cases base : segment * hml < usizeRange
    · by_cases idx : i + segment * hml < usizeRange
      · -- This index still fits, so a later one does not.
        have more : rest ≠ [] := by
          rintro rfl
          simp only [List.length_nil] at large
          omega
        simp only [base, idx, if_true, Bind.bind, Except.bind]
        split
        · rename_i inside
          have located := List.getElem?_eq_getElem
            (show i + segment * hml < r.hashmap.length by omega)
          simp only [index_ok located]
          obtain ⟨height, counted⟩ | overflow :=
            nextHeight_debug r.hashmapHeight r.hashmap[i + segment * hml]
          · rw [counted]
            exact ih (by simpa using sized) more (by omega)
          · rw [overflow]
            exact stops_arithmetic
        · exact ih sized more (by omega)
      · simp only [base, idx, if_true, if_false, Bind.bind, Except.bind, stops_arithmetic]
    · simp only [base, if_false, Bind.bind, Except.bind, stops_arithmetic]

/-- Applying a hashmap with overflow checks on: the exact result, or a stop. -/
theorem applyHashmap_debug {r : Resource} (sized : r.hashmap.length = r.info.totalParts)
    (known : r.hashmapHeight < usizeRange) (segment : Nat) (hashmapData : Bytes)
    (some : hashmapMaxLen r.info.sdu ≠ 0) :
    let hashes := FourBytes.chunks hashmapData
    let start := segment * hashmapMaxLen r.info.sdu
    (r.ApplySafe segment hashes ∧ applyHashmap .debug r segment hashmapData = .ok ({ r with
        hashmap := overlay r.hashmap start hashes
        hashmapHeight := r.hashmapHeight +
          ((r.hashmap.drop start).take hashes.length).countP (·.isZero)
        waitingForHmu := false }, .ok ())) ∨
    (¬ r.ApplySafe segment hashes ∧ Stops (applyHashmap .debug r segment hashmapData)) := by
  intro hashes start
  have unfolded : applyHashmap .debug r segment hashmapData =
      (applyHashes .debug segment (hashmapMaxLen r.info.sdu) 0 hashes r).map fun applied =>
        ({ applied with waitingForHmu := false }, .ok ()) := by
    simp only [applyHashmap, some, if_false]
    cases applyHashes .debug segment (hashmapMaxLen r.info.sdu) 0 hashes r <;> rfl
  rw [unfolded]
  by_cases fits : start + hashes.length ≤ usizeRange
  · -- All indices fit, so only the height can overflow.
    rw [applyHashes_eq sized (by simpa using fits), countHeight_debug known, Nat.add_zero]
    split
    · rename_i counted
      exact .inl ⟨.inr ⟨fits, counted⟩, rfl⟩
    · rename_i overflow
      refine .inr ⟨?_, stops_arithmetic⟩
      rintro (empty | ⟨-, counted⟩)
      · simp only [hashes] at empty
        simp only [hashes, empty, List.length_nil, List.take_zero, List.countP_nil] at overflow
        exact overflow known
      · exact overflow counted
  · by_cases empty : hashes = []
    · refine .inl ⟨.inl empty, ?_⟩
      simp [empty, applyHashes, overlay, Except.map]
    · refine .inr ⟨?_, ?_⟩
      · rintro (none | ⟨within, -⟩)
        · exact empty none
        · exact fits within
      · have stopped : Stops (applyHashes .debug segment (hashmapMaxLen r.info.sdu) 0 hashes r) :=
          applyHashes_overflow sized empty (by omega)
        exact stops_map.mpr stopped

/-- The last known hash is there exactly when the height stays inside the hashmap. -/
private theorem lastKnownHash_debug {r : Resource} (sized : r.hashmap.length = r.info.totalParts)
    (small : r.info.totalParts < 2 ^ 60) :
    (r.hashmapHeight ≤ r.info.totalParts ∧ ∃ last, r.lastKnownHash .debug = .ok last) ∨
      (¬ r.hashmapHeight ≤ r.info.totalParts ∧ Stops (r.lastKnownHash .debug)) := by
  unfold lastKnownHash
  by_cases inside : r.hashmapHeight ≤ r.info.totalParts
  · -- The last known place is inside the hashmap.
    refine .inl ⟨inside, ?_⟩
    split
    · have product : Profile.debug.mul usizeRange (r.hashmapHeight - 1) MAPHASH_LEN =
          .ok ((r.hashmapHeight - 1) * MAPHASH_LEN) :=
        Profile.mul_ok .debug (by unfold MAPHASH_LEN usizeRange; omega)
      have back : (r.hashmapHeight - 1) * MAPHASH_LEN / MAPHASH_LEN = r.hashmapHeight - 1 :=
        Nat.mul_div_cancel _ (by decide)
      have located := List.getElem?_eq_getElem (show r.hashmapHeight - 1 < r.hashmap.length by omega)
      simp only [product, back, index_ok located, Bind.bind, Except.bind]
      exact ⟨_, rfl⟩
    · exact ⟨_, rfl⟩
  · -- It is behind the end, or so far that its offset overflows.
    refine .inr ⟨inside, ?_⟩
    rw [if_pos (by omega)]
    simp only [Profile.mul, Profile.fit]
    split
    · have back : (r.hashmapHeight - 1) * MAPHASH_LEN / MAPHASH_LEN = r.hashmapHeight - 1 :=
        Nat.mul_div_cancel _ (by decide)
      have past : r.hashmap[r.hashmapHeight - 1]? = none := List.getElem?_eq_none (by omega)
      simp [Bind.bind, Except.bind, back, index, past]
    · simp [Bind.bind, Except.bind]

/-- A receiver scans its window and stops only at a last hash past the hashmap. -/
private theorem buildRequest_stops_receiving {r : Resource} (books : r.Bookkeeping)
    (small : r.info.totalParts < 2 ^ 60) (waiting : ¬ r.waitingForHmu = true) :
    Stops (buildRequest .debug r) ↔ ¬ r.BuildSafe r.flow.window := by
  have next : (r.consecutiveCompletedHeight + 1).toNat = filledPrefix r.receivedParts := by
    rw [books.height]
    rfl
  have inside : ∀ pn ∈ r.windowAt (filledPrefix r.receivedParts), pn < r.info.totalParts :=
    fun pn member => (mem_windowAt.mp member).2.2
  have scanned := scanWindow_eq books.slots books.sized inside
    (show ([] : List MapHash).length + _ ≤ _ by simpa using r.windowAt_length _)
  unfold buildRequest
  rw [if_neg waiting]
  simp only [books.next_ok .debug, books.next_index, books.window_ok .debug, scanned, Bind.bind,
    Except.bind]
  by_cases exhausted : (r.windowAt (filledPrefix r.receivedParts)).any r.unknown = true
  · -- A part of the window is missing under the zero hash, so the last hash known is looked up.
    rw [if_pos exhausted]
    obtain ⟨pn, member, unseen⟩ := List.any_eq_true.mp exhausted
    obtain ⟨low, high, total⟩ := mem_windowAt.mp member
    simp only [unknown, missing, Bool.and_eq_true, beq_iff_eq] at unseen
    obtain ⟨known, last, found⟩ | ⟨large, stopped⟩ := lastKnownHash_debug books.sized small
    · simp only [found]
      simp [BuildSafe, books.slots, known, pure, Except.pure]
    · have broken : ¬ r.BuildSafe r.flow.window := by
        rintro ⟨-, known | none⟩
        · exact large known
        · exact none pn (by omega) (by omega) total unseen
      refine iff_of_true ?_ broken
      rcases stopped with stopped | stopped <;> simp [stopped]
  · rw [if_neg exhausted]
    have safe : r.BuildSafe r.flow.window := by
      refine ⟨books.slots, .inr fun pn low high total unseen => exhausted ?_⟩
      refine List.any_eq_true.mpr ⟨pn, mem_windowAt.mpr ⟨by omega, by omega, total⟩, ?_⟩
      simp [unknown, missing, unseen.1, unseen.2]
    simp [safe, pure, Except.pure]

/-- A sender reads the first slot of a buffer it does not have. -/
private theorem buildRequest_stops_sending {r : Resource} (sending : r.Sending)
    (waiting : ¬ r.waitingForHmu = true) :
    Stops (buildRequest .debug r) ↔ ¬ r.BuildSafe r.flow.window := by
  have some := sending.some
  obtain ⟨low, floor, ceiling, high⟩ := sending.bounded.bounds
  have zero : asUsize 0 = 0 := by decide
  have window : r.windowAt 0 = 0 :: List.range' 1 (min r.flow.window r.info.totalParts - 1) := by
    have split : min r.flow.window r.info.totalParts =
        (min r.flow.window r.info.totalParts - 1) + 1 := by omega
    simp only [windowAt, Nat.zero_add, Nat.sub_zero]
    rw [split, List.range'_succ]
    simp
  have broken : ¬ r.BuildSafe r.flow.window := fun safe => sending.slots_ne safe.1
  refine iff_of_true ?_ broken
  unfold buildRequest
  rw [if_neg waiting]
  simp only [sending.next_ok, zero, windowFrom_eq sending.window_fits, window, scanWindow,
    sending.bare, index, List.getElem?_nil, Bind.bind, Except.bind, stops_index]

/-- Building a request stops exactly when it is not safe. -/
theorem buildRequest_stops {r : Resource} (sound : r.Sound) :
    Stops (buildRequest .debug r) ↔ ¬ (r.waitingForHmu = true ∨ r.BuildSafe r.flow.window) := by
  by_cases waiting : r.waitingForHmu = true
  · -- A request is not built twice while an update is awaited.
    simp [buildRequest, waiting]
  · rw [or_iff_right waiting]
    rcases sound.role with books | sending
    · exact buildRequest_stops_receiving books sound.small waiting
    · exact buildRequest_stops_sending sending waiting

/-- Without a receive buffer, a part that matches a hash of the window is a bad index. -/
private theorem placePart_bare {profile : Profile} {r : Resource} {partHash : MapHash}
    {partData : Bytes} (bare : r.receivedParts = []) (window : List Nat) :
    placePart profile r partHash partData window =
      if ∃ i ∈ window, r.hashmap[i]? = some partHash then .error .indexOutOfBounds
      else .ok (r, false) := by
  -- A sender has no slots, so the first place with the hash is read out of bounds.
  induction window with
  | nil => simp [placePart]
  | cons i rest ih =>
    unfold placePart
    cases entry : r.hashmap[i]? with
    | none => simp [ih, entry]
    | some stored =>
      by_cases same : stored = partHash
      · simp [same, entry, bare, index, Bind.bind, Except.bind]
      · simp [same, entry, ih]

/-- A receiver's search stops exactly when the part it finds cannot be counted. -/
private theorem searchPart_stops_receiving {r : Resource} (books : r.Bookkeeping)
    (partData : Bytes) (failed : r.status ≠ .failed) :
    Stops (searchPart .debug r partData) ↔ ¬ r.PlaceSafe partData := by
  have next : (r.consecutiveCompletedHeight + 1).toNat = filledPrefix r.receivedParts := by
    rw [books.height]
    rfl
  rw [searchPart_eq books, if_neg failed]
  cases aimed : r.target partData with
  | none =>
    -- No missing part of the window has the hash.
    have safe : r.PlaceSafe partData := by
      refine .inr ⟨books.slots, .inr fun i ⟨low, high, total, entry⟩ empty => ?_⟩
      have absent := List.find?_eq_none.mp aimed i (mem_windowAt.mpr ⟨by omega, by omega, total⟩)
      simp [entry, missing, empty] at absent
    simp [safe]
  | some i =>
    -- The part fills slot `i`, and only the count of its bytes can overflow.
    obtain ⟨total, entry, empty⟩ := target_spec aimed
    have member := mem_windowAt.mp (List.mem_of_find?_eq_some aimed)
    have live : Bookkeeping { r with status := .transferring } := { books with }
    obtain ⟨grown, -, accepted⟩ := acceptPart_eq live .debug partData empty
    simp only [accepted, Profile.add, Profile.fit]
    have matched : (r.consecutiveCompletedHeight + 1).toNat ≤ i ∧
        i < (r.consecutiveCompletedHeight + 1).toNat + r.flow.window ∧ i < r.info.totalParts ∧
        r.hashmap[i]? = some (mapHashOf partData r.info.randomHash) :=
      ⟨by omega, by omega, total, entry⟩
    split
    · rename_i fits
      have safe : r.PlaceSafe partData := .inr ⟨books.slots, .inl fits⟩
      simp [safe, Except.map]
    · rename_i overflow
      have broken : ¬ r.PlaceSafe partData := by
        rintro (none | ⟨-, fits | held⟩)
        · exact none i matched
        · exact overflow fits
        · exact held i matched empty
      exact iff_of_true stops_arithmetic broken

/-- A sender has no slots, so its search stops exactly when a hash of its window matches. -/
private theorem searchPart_stops_sending {r : Resource} (sending : r.Sending)
    (partData : Bytes) (failed : r.status ≠ .failed) :
    Stops (searchPart .debug r partData) ↔ ¬ r.PlaceSafe partData := by
  -- The window begins at the first part, of which nothing was received.
  have start : (r.consecutiveCompletedHeight + 1).toNat = 0 := by
    rw [sending.height]
    rfl
  have zero : asUsize (max 0 0) = 0 := by decide
  have window : windowFrom .debug { r with status := .transferring } 0 = .ok (r.windowAt 0) :=
    windowFrom_eq sending.window_fits
  simp only [searchPart, failed, if_false, sending.next_ok, zero, window, Bind.bind, Except.bind]
  have bare : receivedParts { r with status := .transferring } = [] := sending.bare
  rw [placePart_bare bare]
  split
  · rename_i hit
    obtain ⟨i, member, entry⟩ := hit
    obtain ⟨low, high, total⟩ := mem_windowAt.mp member
    have broken : ¬ r.PlaceSafe partData := by
      rintro (none | ⟨slots, -⟩)
      · exact none i ⟨by omega, by omega, total, entry⟩
      · exact sending.slots_ne slots
    exact iff_of_true stops_index broken
  · rename_i missed
    have safe : r.PlaceSafe partData := by
      refine .inl fun i ⟨low, high, total, entry⟩ => missed ⟨i, ?_, entry⟩
      exact mem_windowAt.mpr ⟨by omega, by omega, total⟩
    simp [safe]

/-- Searching for a part stops exactly when it is not safe. -/
private theorem searchPart_stops {r : Resource} (sound : r.Sound) (partData : Bytes) :
    Stops (searchPart .debug r partData) ↔ ¬ (r.status = .failed ∨ r.PlaceSafe partData) := by
  by_cases failed : r.status = .failed
  · -- A failed resource searches nothing.
    simp [searchPart, failed]
  · rw [or_iff_right failed]
    rcases sound.role with books | sending
    · exact searchPart_stops_receiving books partData failed
    · exact searchPart_stops_sending sending partData failed

/-- Receiving a part stops exactly when placing it is not safe. -/
theorem receivePart_stops {r : Resource} (sound : r.Sound) (partData : Bytes) (now : Instant) :
    Stops (receivePart .debug r partData now) ↔
      ¬ (r.status = .failed ∨ r.PlaceSafe partData) := by
  -- A sound resource measures nothing, so only the search can stop.
  have started : Sound { r with
      receivingPart := true
      timing := { r.timing with lastActivity := now, retriesLeft := r.timing.maxRetries } } := {
    mdu := sound.mdu
    idle := sound.idle
    known := sound.known
    start := sound.start
    fewer := sound.fewer
    counted := sound.counted
    role := sound.role.imp (fun books => { books with }) fun sending => { sending with } }
  have unfolded : receivePart .debug r partData now =
      (fun placed : Resource × Bool => ({ placed.1 with receivingPart := false }, placed.2)) <$>
        searchPart .debug { r with
          receivingPart := true
          timing := { r.timing with lastActivity := now, retriesLeft := r.timing.maxRetries } }
          partData := by
    simp only [receivePart, measureResponse_idle started.idle]
    rfl
  rw [unfolded, stops_map, searchPart_stops started]
  rfl

/-- The hashmap half of an answer never faults and keeps the search start inside. -/
private theorem answerHashmap_ok {r : Resource} (profile : Profile) (mdu : r.info.sdu < usizeRange)
    (small : r.info.totalParts < 2 ^ 60)
    (start : r.receiverMinConsecutiveHeight ≤ r.info.totalParts)
    (fewer : r.parts.length ≤ r.info.totalParts) (window : List Nat) (lastMapHash : Option Bytes) :
    ∃ status height answer, answerHashmap profile r window lastMapHash =
        .ok ({ r with status := status, receiverMinConsecutiveHeight := height }, answer) ∧
      height ≤ r.info.totalParts := by
  -- The part named lies inside, so its segment can be cut out.
  cases lastMapHash with
  | none => exact ⟨_, _, _, rfl, start⟩
  | some named =>
    have inside : (findAfter r.parts named window).getD r.receiverMinConsecutiveHeight ≤
        r.info.totalParts := by
      cases found : findAfter r.parts named window with
      | none => exact start
      | some k =>
        obtain ⟨i, part, rfl, -, located, -⟩ := findAfter_some found
        obtain ⟨bound, -⟩ := List.getElem?_eq_some_iff.mp located
        simp only [Option.getD_some]
        omega
    have lower : (findAfter r.parts named window).getD r.receiverMinConsecutiveHeight -
        (1 + WINDOW_MAX) ≤ r.info.totalParts := by omega
    simp only [answerHashmap]
    split
    · exact ⟨_, _, _, rfl, lower⟩
    · rw [segmentFrom_eq (by exact mdu) (by exact small) (by exact inside)]
      exact ⟨_, _, _, rfl, lower⟩

/-- Answering a request never faults, keeps the search start inside and the count right. -/
theorem answerRequest_ok {r : Resource} (sound : r.Sound) (profile : Profile)
    (request : PartRequest) (now : Instant) :
    ∃ final result, answerRequest profile r request now = .ok (final, result) ∧
      final.receiverMinConsecutiveHeight ≤ r.info.totalParts ∧
      final.sentParts = final.parts.countP (·.sent) := by
  -- Sending parts and cutting a segment never stops for a sound sender.
  have small := sound.small
  have fewer := sound.fewer
  obtain ⟨sent, chosen, sending, counted⟩ := sendParts_ok profile request.mapHashes now r.sendWindowAt
    sound.counted (by unfold usizeRange; omega)
  obtain ⟨parts, sentParts, active, last, rfl, kept⟩ := sendParts_frame sending
  have same : parts.length = r.parts.length := parts_length_of_contents kept
  obtain ⟨status, height, answer, answering, lower⟩ := answerHashmap_ok
    (r := { r with
      parts := parts, sentParts := sentParts,
      timing := { r.timing with lastActivity := active, lastPartSent := last } })
    profile sound.mdu small sound.start (same ▸ fewer) r.sendWindowAt request.lastMapHash
  simp only [answerRequest, sendWindow_eq sound.mdu small sound.start, sending, answering, Bind.bind,
    Except.bind]
  cases answer with
  | error fault => exact ⟨_, _, rfl, lower, counted⟩
  | ok update =>
    simp only [finishRequest]
    split
    · exact ⟨_, _, rfl, lower, counted⟩
    · exact ⟨_, _, rfl, lower, counted⟩

/-- Any change of the sender's own fields that keeps them in range keeps a resource sound. -/
theorem Sound.answered {r : Resource} (sound : r.Sound) {status : ResourceStatus}
    {parts : List ResourcePart} {sentParts height : Nat} {hashes : List Hash} {timing : Timing}
    (idle : timing.reqSent = none) (start : height ≤ r.info.totalParts)
    (fewer : parts.length ≤ r.info.totalParts) (counted : sentParts = parts.countP (·.sent)) :
    Sound { r with
      status := status, parts := parts, sentParts := sentParts,
      receiverMinConsecutiveHeight := height, reqHashlist := hashes, timing := timing } where
  mdu := sound.mdu
  idle := idle
  known := sound.known
  start := start
  fewer := fewer
  counted := counted
  role := sound.role.imp (fun books => { books with }) fun sending => { sending with }

/-- Handling a request never faults and leaves the resource sound. -/
theorem handleRequest_ok {r : Resource} (sound : r.Sound) (profile : Profile) (requestData : Bytes)
    (packetHash : Option Hash) (now : Instant) :
    ∃ final result, handleRequest profile r requestData packetHash now = .ok (final, result) ∧
      final.Sound := by
  unfold handleRequest
  split
  · exact ⟨_, _, rfl, sound⟩
  · split
    · exact ⟨_, _, rfl, sound⟩
    · obtain ⟨hashes, remembered⟩ := rememberRequest_frame r packetHash
      obtain ⟨rtt, began⟩ := beginRequest_frame { r with reqHashlist := hashes } now
      have noted : Sound { r with reqHashlist := hashes } :=
        sound.answered sound.idle sound.start sound.fewer sound.counted
      have begun : Sound (beginRequest { r with reqHashlist := hashes } now) := by
        rw [began]
        exact sound.answered sound.idle sound.start sound.fewer sound.counted
      rw [remembered, parseRequest_eq]
      simp only [Bind.bind, Except.bind]
      -- A rejected request leaves only its hash behind.
      split
      · exact ⟨_, _, rfl, noted⟩
      · rename_i request _
        obtain ⟨final, result, answered, start, counted⟩ :=
          answerRequest_ok begun profile request now
        refine ⟨final, result, answered, ?_⟩
        obtain ⟨status, parts, sentParts, height, active, last, retries, rfl, kept, -⟩ :=
          answerRequest_frame answered
        have same : parts.length = r.parts.length := parts_length_of_contents kept
        exact begun.answered begun.idle start (same ▸ begun.fewer) counted

/-- The state a safe application of hashes leads to is sound. -/
private theorem Sound.applied {r : Resource} (sound : r.Sound) {hashmap : List MapHash}
    {height : Nat} {waiting : Bool} (same : hashmap.length = r.hashmap.length)
    (known : height < usizeRange) :
    Sound { r with hashmap := hashmap, hashmapHeight := height, waitingForHmu := waiting } where
  mdu := sound.mdu
  idle := sound.idle
  known := known
  start := sound.start
  fewer := sound.fewer
  counted := sound.counted
  role := sound.role.imp (fun books => { books with sized := same.trans books.sized })
    fun sending => { sending with sized := same.trans sending.sized }

/-- A changed status, wait or outstanding count leaves a resource sound, and so do its timers. -/
private theorem Sound.touched {r : Resource} (sound : r.Sound) {status : ResourceStatus}
    {waiting : Bool} {outstanding : Nat} {flow : FlowControl} {timing : Timing}
    (idle : timing.reqSent = none) (bounded : flow.Bounded) :
    Sound { r with
      status := status, waitingForHmu := waiting, outstandingParts := outstanding, flow := flow,
      timing := timing } where
  mdu := sound.mdu
  idle := idle
  known := sound.known
  start := sound.start
  fewer := sound.fewer
  counted := sound.counted
  role := sound.role.imp (fun books => { books with bounded := bounded })
    fun sending => { sending with bounded := bounded }

/-- A request that was built leaves the resource sound. -/
private theorem buildRequest_sound {r final : Resource} (sound : r.Sound) {profile : Profile}
    {result : Except RnsError Bytes} (finished : buildRequest profile r = .ok (final, result)) :
    final.Sound := by
  obtain ⟨outstanding, waiting, rfl⟩ := buildRequest_frame finished
  exact sound.touched sound.idle sound.bounded

/-- A hashmap that was applied leaves the resource sound. -/
private theorem applyHashmap_sound {r final : Resource} (sound : r.Sound) {segment : Nat}
    {hashmapData : Bytes} {result : Except RnsError Unit}
    (finished : applyHashmap .debug r segment hashmapData = .ok (final, result)) : final.Sound := by
  -- A finished call is one that was safe, and its height is the count.
  by_cases some : hashmapMaxLen r.info.sdu = 0
  · simp only [applyHashmap, some, if_true] at finished
    obtain ⟨rfl, -⟩ := Prod.mk.inj (Except.ok.inj finished)
    exact sound
  · obtain ⟨safe, applied⟩ | ⟨-, stopped⟩ :=
      applyHashmap_debug sound.sized sound.known segment hashmapData some
    · rw [applied] at finished
      obtain ⟨rfl, -⟩ := Prod.mk.inj (Except.ok.inj finished)
      refine sound.applied (overlay_length _ _ _) ?_
      rcases safe with empty | ⟨-, counted⟩
      · simpa [empty] using sound.known
      · exact counted
    · rw [finished] at stopped
      exact absurd stopped (not_stops_ok _)

/-- Starting to receive stops exactly when applying or the request after it is not safe. -/
private theorem startReceive_stops {r : Resource} (sound : r.Sound) (initialHashmap : Bytes)
    (now : Instant) : Stops (startReceive .debug r initialHashmap now) ↔
      ¬ r.CallSafe (.startReceive initialHashmap now) := by
  -- It stops where the hashmap cannot be applied, or the request not be built after that.
  have started : Sound { r with
      status := .transferring, timing := { r.timing with lastActivity := now } } :=
    sound.touched sound.idle sound.bounded
  by_cases some : hashmapMaxLen r.info.sdu = 0
  · simp [startReceive, applyHashmap, some, CallSafe, Bind.bind, Except.bind, pure, Except.pure]
  · obtain ⟨safe, applied⟩ | ⟨refused, stopped⟩ :=
      applyHashmap_debug started.sized started.known 0 initialHashmap some
    · have ready := applyHashmap_sound started applied
      simp only [startReceive, applied, Bind.bind, Except.bind]
      rw [buildRequest_stops ready]
      simp only [Nat.zero_mul, List.drop_zero, CallSafe, some, false_or, Bool.false_eq_true]
      have applies : r.ApplySafe 0 (FourBytes.chunks initialHashmap) := safe
      simp only [applies, true_and]
      rfl
    · have broken : ¬ r.ApplySafe 0 (FourBytes.chunks initialHashmap) := refused
      refine iff_of_true ?_ (by simp [CallSafe, some, broken])
      simp only [startReceive]
      rcases stopped with stopped | stopped <;> simp [stopped, Bind.bind, Except.bind]

/-- A wait that cannot be represented is a panic of another kind. -/
private theorem not_stops_of_wait {α : Type} {secs : Float} {next : Duration → Outcome α}
    (safe : ∀ wait, Duration.fromSecsF64 secs = .ok wait → ¬ Stops (next wait)) :
    ¬ Stops (Duration.fromSecsF64 secs >>= next) := by
  -- A duration that cannot be computed panics, which is not a bad index or an overflow.
  cases computed : Duration.fromSecsF64 secs with
  | ok wait => exact safe wait computed
  | error fault =>
    obtain rfl := fromSecsF64_error computed
    simp [Stops, Bind.bind, Except.bind]

/-- Asking again stops exactly when retries are left and the window as shrunk cannot be asked for. -/
private theorem retryPartRequest_stops {r : Resource} (sound : r.Sound) :
    Stops (retryPartRequest .debug r) ↔ ¬ (r.timing.retriesLeft = 0 ∨
      r.BuildSafe (if r.flow.window > r.flow.windowMin then r.flow.window - 1 else r.flow.window)) := by
  unfold retryPartRequest
  by_cases spent : r.timing.retriesLeft = 0
  · simp [spent]
  · obtain ⟨shrunk, shrinking, bounded, window⟩ := sound.bounded.shrink .debug
    have left : Profile.debug.sub usizeRange r.timing.retriesLeft 1 =
        .ok (r.timing.retriesLeft - 1) := Profile.sub_ok .debug (by omega)
    -- The request is built with the shrunk window by a resource that is still sound.
    have retried : Sound { r with
        flow := shrunk, waitingForHmu := false,
        timing := { r.timing with retriesLeft := r.timing.retriesLeft - 1 } } :=
      sound.touched sound.idle bounded
    have asked := buildRequest_stops retried
    simp only [Bool.false_eq_true, false_or] at asked
    rw [if_neg spent, or_iff_right spent, ← window]
    simp only [left, shrinking, Bind.bind, Except.bind]
    refine Iff.trans ?_ asked
    cases buildRequest .debug { r with
        flow := shrunk, waitingForHmu := false,
        timing := { r.timing with retriesLeft := r.timing.retriesLeft - 1 } } with
    | ok built => simp [pure, Except.pure]
    | error fault => simp [Stops]

/-- Checking the timeouts stops exactly when it has to build a request that is not safe. -/
private theorem checkTimeout_stops {r : Resource} (sound : r.Sound) (now : Instant) :
    Stops (checkTimeout .debug r now) ↔ ¬ r.CallSafe (.checkTimeout now) := by
  by_cases transferring : r.status = .transferring
  · simp only [checkTimeout, transferring]
    cases waiting : r.partTimeout with
    | error fault =>
      -- No deadline is computed, so no request is built.
      have quiet : r.CallSafe (.checkTimeout now) := by
        refine .inr (.inr (.inl fun wait computed => ?_))
        rw [waiting] at computed
        cases computed
      have another : fault = .durationOutOfRange := fromSecsF64_error waiting
      simp [quiet, another, Stops, Bind.bind, Except.bind]
    | ok wait =>
      simp only [Bind.bind, Except.bind]
      by_cases due : expired r.timing.lastActivity wait now = true
      · -- The deadline has passed, so the parts are asked for again.
        rw [if_pos due, retryPartRequest_stops sound]
        refine not_congr ⟨fun safe => .inr (safe.imp_right .inr), ?_⟩
        rintro (other | none | early | safe)
        · exact absurd transferring other
        · exact .inl none
        · simp [early wait waiting] at due
        · exact .inr safe
      · rw [if_neg due]
        have quiet : r.CallSafe (.checkTimeout now) := by
          refine .inr (.inr (.inl fun other computed => ?_))
          obtain rfl := Except.ok.inj (waiting.symm.trans computed)
          simpa using due
        simp [quiet, pure, Except.pure]
  · -- In any other state a timeout builds no request.
    have quiet : r.CallSafe (.checkTimeout now) := .inl transferring
    refine iff_of_false ?_ (by simp [quiet])
    unfold checkTimeout
    split
    · refine not_stops_of_wait fun wait _ => ?_
      split
      · unfold retryAdvertisement
        split
        · exact not_stops_ok _
        · rw [Profile.sub_ok .debug (by omega)]
          exact not_stops_ok _
      · exact not_stops_ok _
    · contradiction
    · refine not_stops_of_wait fun wait _ => ?_
      split
      · unfold retryProof
        split
        · exact not_stops_ok _
        · rw [Profile.sub_ok .debug (by omega)]
          exact not_stops_ok _
      · exact not_stops_ok _
    · exact not_stops_ok _

/-- On a sound resource a call stops exactly when it is not safe. -/
theorem perform_stops {r : Resource} (sound : r.Sound) (op : Op) :
    Stops (perform .debug r op) ↔ ¬ r.CallSafe op := by
  -- Each call has its own condition.
  cases op with
  | startReceive initialHashmap now => exact stops_map.trans (startReceive_stops sound _ now)
  | applyHashmap segment hashmapData =>
    refine stops_map.trans ?_
    by_cases some : hashmapMaxLen r.info.sdu = 0
    · simp [applyHashmap, some, CallSafe, pure, Except.pure]
    · simp only [CallSafe, some, false_or]
      obtain ⟨safe, applied⟩ | ⟨refused, stopped⟩ :=
        applyHashmap_debug sound.sized sound.known segment hashmapData some
      · simp [safe, applied]
      · exact iff_of_true stopped refused
  | buildRequest => exact stops_map.trans (buildRequest_stops sound)
  | receivePart partData now => exact stops_map.trans (receivePart_stops sound partData now)
  | handleRequest requestData packetHash now =>
    obtain ⟨final, result, handled, -⟩ := handleRequest_ok sound .debug requestData packetHash now
    simp [perform, handled, CallSafe, Functor.map, Except.map]
  | setStatus status => simp [perform, CallSafe]
  | checkTimeout now => exact stops_map.trans (checkTimeout_stops sound now)

/-- A sender that survives a part has placed nothing. -/
private theorem receivePart_sending {r final : Resource} (sending : r.Sending)
    (idle : r.timing.reqSent = none) {partData : Bytes} {now : Instant} {found : Bool}
    (finished : receivePart .debug r partData now = .ok (final, found)) : final.Sending := by
  -- A sender has no slots, so a search that finishes found nothing.
  simp only [receivePart, bind_eq_ok] at finished
  obtain ⟨measured, measuring, ⟨placed, hit⟩, searching, finished⟩ := finished
  obtain ⟨rfl, -⟩ := Prod.mk.inj (Except.ok.inj finished)
  rw [measureResponse_idle (by exact idle)] at measuring
  obtain rfl := Except.ok.inj measuring
  unfold searchPart at searching
  split at searching
  · obtain ⟨rfl, -⟩ := Prod.mk.inj (Except.ok.inj searching)
    exact { sending with }
  · simp only [bind_eq_ok] at searching
    obtain ⟨height, -, window, -, searching⟩ := searching
    rw [placePart_bare (by exact sending.bare)] at searching
    split at searching
    · cases searching
    · obtain ⟨rfl, -⟩ := Prod.mk.inj (Except.ok.inj searching)
      exact { sending with }

/-- A part received leaves the resource sound. -/
private theorem receivePart_sound {r final : Resource} (sound : r.Sound) {partData : Bytes}
    {now : Instant} {found : Bool}
    (finished : receivePart .debug r partData now = .ok (final, found)) : final.Sound := by
  -- Seen from outside nothing changes, and inside the role of the resource is kept.
  have same := receivePart_outside finished
  simp only [outside, Prod.mk.injEq] at same
  obtain ⟨-, info, parts, -, height, sent, start, request⟩ := same
  exact {
    mdu := info ▸ sound.mdu
    idle := request ▸ sound.idle
    known := height ▸ sound.known
    start := by rw [start, info]; exact sound.start
    fewer := by rw [parts, info]; exact sound.fewer
    counted := by rw [sent, parts]; exact sound.counted
    role := by
      rcases sound.role with books | sending
      · have performed : perform .debug r (.receivePart partData now) = .ok final := by
          simp [perform, finished, Functor.map, Except.map]
        exact .inl (perform_books books performed).1
      · exact .inr (receivePart_sending sending sound.idle finished) }

/-- Every finished call leaves a sound resource sound. -/
theorem perform_sound {r final : Resource} (sound : r.Sound) {op : Op}
    (finished : perform .debug r op = .ok final) : final.Sound := by
  cases op with
  | startReceive initialHashmap now =>
    obtain ⟨⟨built, result⟩, starting, rfl⟩ := map_eq_ok.mp finished
    -- Only the first half of a start writes to the hashmap.
    obtain ⟨applied, answer, applying, ending⟩ := startReceive_cases starting
    have started : Sound { r with
        status := .transferring, timing := { r.timing with lastActivity := now } } :=
      sound.touched sound.idle sound.bounded
    have ready := applyHashmap_sound started applying
    obtain ⟨-, -, rfl, -⟩ | ⟨-, building⟩ := ending
    · exact ready
    · exact buildRequest_sound ready building
  | applyHashmap segment hashmapData =>
    obtain ⟨⟨applied, answer⟩, applying, rfl⟩ := map_eq_ok.mp finished
    exact applyHashmap_sound sound applying
  | buildRequest =>
    obtain ⟨⟨built, result⟩, building, rfl⟩ := map_eq_ok.mp finished
    exact buildRequest_sound sound building
  | receivePart partData now =>
    obtain ⟨⟨placed, found⟩, receiving, rfl⟩ := map_eq_ok.mp finished
    exact receivePart_sound sound receiving
  | handleRequest requestData packetHash now =>
    -- A sound sender answers every request and stays sound.
    obtain ⟨answered, result, handled, kept⟩ :=
      handleRequest_ok sound .debug requestData packetHash now
    simp only [perform, handled, Functor.map, Except.map, Except.ok.injEq] at finished
    exact finished ▸ kept
  | setStatus status =>
    obtain rfl := Except.ok.inj finished
    exact sound.touched sound.idle sound.bounded
  | checkTimeout now =>
    obtain ⟨⟨checked, action⟩, checking, rfl⟩ := map_eq_ok.mp finished
    obtain ⟨rfl, -⟩ | ⟨rfl, -⟩ | ⟨retries, advRetries, rfl, -⟩ |
      ⟨-, retries, flow, request, shrunk, asked, -⟩ := checkTimeout_cases checking
    · exact sound
    · exact sound.touched sound.idle sound.bounded
    · exact sound.touched sound.idle sound.bounded
    · obtain ⟨smaller, same, bounded, -⟩ := sound.bounded.shrink .debug
      obtain rfl := Except.ok.inj (same.symm.trans shrunk)
      have retried : Sound { r with
          flow := smaller, waitingForHmu := false,
          timing := { r.timing with retriesLeft := retries } } := sound.touched sound.idle bounded
      exact buildRequest_sound retried asked

/-- A resource as one of the two constructors returns it, with a link MTU that is a `usize`. -/
inductive Created : Resource → Prop where
  /-- `Resource::new`. -/
  | outgoing {bzip2 : Bzip2} {draws : Draws} {data : Bytes} {linkMdu : Nat} {encrypt : Cipher}
      {requestId : Option Bytes} {isResponse autoCompress : Bool} {now : Instant} {r : Resource}
      (mdu : linkMdu < usizeRange)
      (built : Resource.new bzip2 draws data linkMdu encrypt requestId isResponse autoCompress now =
        .ok (some (.ok r))) : Created r
  /-- `Resource::new_from_advertisement`. -/
  | incoming {adv : ResourceAdvertisement} {linkMdu : Nat} {rtt : Duration}
      {requestId : Option Bytes} {now : Instant} {r : Resource} (mdu : linkMdu < usizeRange)
      (built : newFromAdvertisement .debug adv linkMdu rtt requestId now = .ok r) : Created r

/-- A new resource is sound in its role. -/
theorem Created.sound {r : Resource} (created : Created r) : r.Sound := by
  cases created with
  | @outgoing bzip2 draws data linkMdu _ _ _ _ _ _ mdu built =>
    obtain ⟨payload, compressed, encryptedBuf, randomHash, parts, -, -, -, -, vector, named, rfl⟩ :=
      Resource.new_cases built
    have cut := guardedParts_parts named
    have many : parts.length = (cutParts encryptedBuf linkMdu).length := by rw [cut]; simp
    have small : (cutParts encryptedBuf linkMdu).length * 24 < isizeRange := by
      unfold isizeRange at *
      omega
    have unsent : parts.countP (·.sent) = 0 := by
      rw [cut, List.countP_map]
      simp [Function.comp_def]
    exact {
      mdu := mdu
      idle := rfl
      known := by simp only [Resource.outgoing]; unfold isizeRange at small; unfold usizeRange; omega
      start := Nat.zero_le _
      fewer := Nat.le_of_eq many
      counted := unsent.symm
      role := by
        rcases Nat.eq_zero_or_pos (cutParts encryptedBuf linkMdu).length with none | some
        · -- A sender without parts has an empty buffer of the right size.
          exact .inl {
            small := small
            slots := none.symm
            sized := by simpa [Resource.outgoing] using many
            count := rfl
            height := rfl
            bounded := FlowControl.initial_bounded }
        · exact .inr {
            small := small
            sized := by simpa [Resource.outgoing] using many
            bounded := FlowControl.initial_bounded
            bare := rfl
            height := rfl
            some := some } }
  | incoming mdu built =>
    have books := newFromAdvertisement_bookkeeping built
    simp only [newFromAdvertisement, bind_eq_ok] at built
    obtain ⟨bytes, -, _, -, _, -, made⟩ := built
    obtain rfl := Except.ok.inj made
    exact {
      mdu := mdu
      idle := rfl
      known := by unfold usizeRange; exact Nat.two_pow_pos 64
      start := Nat.zero_le _
      fewer := Nat.zero_le _
      counted := rfl
      role := .inl books }

/--
With overflow checks on, a sequence of calls on a new resource runs into no bad index and no
overflow exactly when every call it makes is safe in the state it is made in.
-/
theorem no_panic_iff_calls_safe {created : Resource} (origin : Created created) (ops : List Op) :
    ¬ Stops (performAll .debug created ops) ↔
      ∀ front op back r, ops = front ++ op :: back → performAll .debug created front = .ok r →
        r.CallSafe op := by
  have sound := origin.sound
  clear origin
  induction ops generalizing created with
  | nil => simp [performAll, pure, Except.pure]
  | cons op rest ih =>
    have stops := perform_stops sound op
    cases first : perform .debug created op with
    | error fault =>
      -- The sequence ends at its first call, whose safety is all that is asked.
      have ended : performAll .debug created (op :: rest) = .error fault := by
        simp [performAll, first, Bind.bind, Except.bind]
      have same : Stops (performAll .debug created (op :: rest)) ↔ Stops (perform .debug created op) := by
        rw [ended, first]
      rw [same, stops, not_not]
      constructor
      · rintro safe (_ | ⟨earlier, front⟩) later back r split reached
        · obtain ⟨rfl, -⟩ := List.cons.inj split
          obtain rfl := Except.ok.inj reached
          exact safe
        · obtain ⟨rfl, -⟩ := List.cons.inj split
          simp [performAll, first, Bind.bind, Except.bind] at reached
      · exact fun safe => safe [] op rest created rfl rfl
    | ok middle =>
      have goes : performAll .debug created (op :: rest) = performAll .debug middle rest := by
        simp [performAll, first, Bind.bind, Except.bind]
      have safe : created.CallSafe op := by
        by_contra broken
        rw [first] at stops
        exact not_stops_ok _ (stops.mpr broken)
      rw [goes]
      refine (ih (perform_sound sound first)).trans ?_
      constructor
      · rintro later (_ | ⟨earlier, front⟩) call back r split reached
        · obtain ⟨rfl, -⟩ := List.cons.inj split
          obtain rfl := Except.ok.inj reached
          exact safe
        · obtain ⟨rfl, rfl⟩ := List.cons.inj split
          simp only [performAll, List.foldlM_cons, first, Bind.bind, Except.bind] at reached
          exact later front call back r rfl reached
      · intro all front call back r split reached
        refine all (op :: front) call back r (by rw [split]; rfl) ?_
        simpa [performAll, first, Bind.bind, Except.bind] using reached

/-- Rejected requests and status changes never stop a receiver of two parts. -/
theorem no_panic_iff_calls_safe_rejected :
    ∃ created, newFromAdvertisement .debug twoParts 200 0 none 0 = .ok created ∧
      ¬ Stops (performAll .debug created
        [.handleRequest [] none 0, .setStatus .failed, .handleRequest [0xFF, 1] none 1]) := by
  -- None of the three calls is of a kind that can stop.
  have evaluated : passes (newFromAdvertisement .debug twoParts 200 0 none 0) (fun _ => true) = true :=
    by decide +kernel
  obtain ⟨created, built, -⟩ := exists_of_passes evaluated
  refine ⟨created, built, ?_⟩
  refine (no_panic_iff_calls_safe (.incoming (by decide) built) _).mpr ?_
  intro front op back r split reached
  have member : op ∈ front ++ op :: back := by simp
  rw [← split] at member
  simp only [List.mem_cons, List.not_mem_nil, or_false] at member
  rcases member with rfl | rfl | rfl <;> trivial

/-- A sender in transfer indexes a buffer it does not have when its timeout is checked. -/
theorem sender_timeout_panics :
    ∃ sender, Resource.new storeBzip2 ⟨.zero, .zero, []⟩ [1] 200 copyCipher none false false 0 =
        .ok (some (.ok sender)) ∧
      performAll .debug sender [.setStatus .transferring, .checkTimeout 1000000000000] =
        .error .indexOutOfBounds := by
  -- A sender has no received parts to scan, but its timeout scans them.
  have evaluated : ((plainResource [1] 200).any fun sender =>
      match performAll .debug sender [.setStatus .transferring, .checkTimeout 1000000000000] with
      | .error fault => decide (fault = .indexOutOfBounds)
      | .ok _ => false) = true := by
    decide +kernel
  obtain ⟨sender, made, stopped⟩ := (Option.any_eq_true _ _).mp evaluated
  refine ⟨sender, new_of_plainResource made, ?_⟩
  split at stopped
  · rename_i fault ended
    rw [ended, of_decide_eq_true stopped]
  · cases stopped

end Resource

end Reticulum
