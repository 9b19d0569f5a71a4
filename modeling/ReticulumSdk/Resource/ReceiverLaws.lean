import ReticulumSdk.Base.Slots
import ReticulumSdk.Resource.FlowLaws

/-! What each operation of the receiving side changes, read off the code once. -/

namespace Reticulum

open Resource Slots

namespace Resource

/-- Applying hashes changes the hashmap and its height, and nothing else. -/
theorem applyHashes_frame {profile : Profile} {segment hml i : Nat} {hashes : List MapHash}
    {r final : Resource} (finished : applyHashes profile segment hml i hashes r = .ok final) :
    ∃ hashmap height, final = { r with hashmap := hashmap, hashmapHeight := height } ∧
      hashmap.length = r.hashmap.length := by
  -- Every turn of the loop either writes one entry or skips its hash.
  induction hashes generalizing i r with
  | nil =>
    obtain rfl := Except.ok.inj finished
    exact ⟨_, _, rfl, rfl⟩
  | cons mapHash rest ih =>
    simp only [applyHashes, bind_eq_ok] at finished
    obtain ⟨base, -, idx, -, finished⟩ := finished
    split at finished
    · simp only [bind_eq_ok] at finished
      obtain ⟨stored, -, height, -, finished⟩ := finished
      obtain ⟨hashmap, last, rfl, same⟩ := ih finished
      exact ⟨hashmap, last, rfl, by simpa using same⟩
    · exact ih finished

/-- The heights counted over the entries a segment covers. -/
def countHeight (profile : Profile) (touched : List MapHash) (height : Nat) : Outcome Nat :=
  touched.foldlM (nextHeight profile) height

/-- A height that stays inside the range is counted exactly. -/
theorem countHeight_ok {profile : Profile} {touched : List MapHash} {height : Nat}
    (fits : height + touched.countP (·.isZero) < usizeRange) :
    countHeight profile touched height = .ok (height + touched.countP (·.isZero)) := by
  -- Only places that were zero before raise the height.
  induction touched generalizing height with
  | nil => simp [countHeight, pure, Except.pure]
  | cons stored rest ih =>
    simp only [List.countP_cons] at fits ⊢
    simp only [countHeight, List.foldlM_cons, nextHeight, Bind.bind, Except.bind]
    by_cases zero : stored.isZero = true
    · simp only [zero, if_true] at fits ⊢
      have counted := ih (show height + 1 + rest.countP (·.isZero) < usizeRange by omega)
      simp only [countHeight] at counted
      simp only [Profile.add_ok profile (show height + 1 < usizeRange by omega), counted]
      congr 1
      omega
    · simp only [zero, if_false, Nat.add_zero, Bool.false_eq_true] at fits ⊢
      simpa only [countHeight] using ih fits

/-- Inside the index range, applying hashes overlays them and counts the zeros they cover. -/
theorem applyHashes_eq {profile : Profile} {segment hml i : Nat} {hashes : List MapHash}
    {r : Resource} (sized : r.hashmap.length = r.info.totalParts)
    (fits : segment * hml + i + hashes.length ≤ usizeRange) :
    applyHashes profile segment hml i hashes r =
      (countHeight profile ((r.hashmap.drop (segment * hml + i)).take hashes.length)
        r.hashmapHeight).map fun height =>
          { r with hashmap := overlay r.hashmap (segment * hml + i) hashes,
                   hashmapHeight := height } := by
  -- By induction over the hashes, which go to consecutive places from `segment * hml + i` on.
  induction hashes generalizing i r with
  | nil => rfl
  | cons mapHash rest ih =>
    simp only [List.length_cons] at fits
    have base : profile.mul usizeRange segment hml = .ok (segment * hml) :=
      Profile.mul_ok profile (by omega)
    have idx : profile.add usizeRange i (segment * hml) = .ok (i + segment * hml) :=
      Profile.add_ok profile (by omega)
    have moved : i + segment * hml = segment * hml + i := Nat.add_comm _ _
    simp only [applyHashes, base, idx, moved, Bind.bind, Except.bind]
    by_cases inside : segment * hml + i < r.info.totalParts
    · -- The entry exists, so it is read, counted and replaced.
      have located : segment * hml + i < r.hashmap.length := by omega
      have read : index r.hashmap (segment * hml + i) = .ok (r.hashmap[segment * hml + i]) :=
        index_ok (List.getElem?_eq_getElem located)
      have cut : (r.hashmap.drop (segment * hml + i)).take (rest.length + 1) =
          r.hashmap[segment * hml + i] ::
            (r.hashmap.drop (segment * hml + (i + 1))).take rest.length := by
        rw [List.drop_eq_getElem_cons located, List.take_succ_cons]
        rfl
      simp only [inside, if_true, read, List.length_cons, cut, countHeight, List.foldlM_cons]
      cases nextHeight profile r.hashmapHeight r.hashmap[segment * hml + i] with
      | error fault => rfl
      | ok height =>
        simp only [Bind.bind, Except.bind]
        rw [ih (by simpa using sized) (by omega)]
        simp only [countHeight, overlay, ← Nat.add_assoc, List.drop_set]
        rw [if_pos (by omega)]
    · -- Past the last part the hash is skipped, and an overlay drops it too.
      have beyond : r.hashmap.length ≤ segment * hml + i := by omega
      have outside : r.hashmap.length ≤ segment * hml + i + 1 := by omega
      simp only [inside, if_false]
      rw [ih sized (by omega)]
      simp only [List.length_cons, List.drop_eq_nil_of_le beyond,
        List.drop_eq_nil_of_le outside, List.take_nil, overlay,
        List.set_eq_of_length_le beyond, ← Nat.add_assoc]

/-- Applying a hashmap changes only the hashmap, its height and the wait for an update. -/
theorem applyHashmap_frame {profile : Profile} {r final : Resource} {segment : Nat}
    {hashmapData : Bytes} {result : Except RnsError Unit}
    (finished : applyHashmap profile r segment hashmapData = .ok (final, result)) :
    ∃ hashmap height waiting, final = { r with
        hashmap := hashmap, hashmapHeight := height, waitingForHmu := waiting } ∧
      hashmap.length = r.hashmap.length := by
  -- Without room for a hash nothing is applied, and otherwise only the loop writes.
  simp only [applyHashmap] at finished
  split at finished
  · obtain ⟨rfl, -⟩ := Prod.mk.inj (Except.ok.inj finished)
    exact ⟨_, _, _, rfl, rfl⟩
  · simp only [bind_eq_ok] at finished
    obtain ⟨applied, loop, done⟩ := finished
    obtain ⟨hashmap, height, rfl, same⟩ := applyHashes_frame loop
    obtain ⟨rfl, -⟩ := Prod.mk.inj (Except.ok.inj done)
    exact ⟨hashmap, height, false, rfl, same⟩

/-- A hashmap applied inside the index range is laid over the old one. -/
theorem applyHashmap_overlay {profile : Profile} {r final : Resource} {segment : Nat}
    {hashmapData : Bytes} {result : Except RnsError Unit}
    (sized : r.hashmap.length = r.info.totalParts) (some : hashmapMaxLen r.info.sdu ≠ 0)
    (fits : segment * hashmapMaxLen r.info.sdu + (FourBytes.chunks hashmapData).length ≤ usizeRange)
    (finished : applyHashmap profile r segment hashmapData = .ok (final, result)) :
    result = .ok () ∧ ∃ height,
      countHeight profile ((r.hashmap.drop (segment * hashmapMaxLen r.info.sdu)).take
        (FourBytes.chunks hashmapData).length) r.hashmapHeight = .ok height ∧
      final = { r with
        hashmap := overlay r.hashmap (segment * hashmapMaxLen r.info.sdu)
          (FourBytes.chunks hashmapData)
        hashmapHeight := height
        waitingForHmu := false } := by
  -- The loop is an overlay of the hashmap with the height counted aside.
  simp only [applyHashmap, some, if_false, bind_eq_ok] at finished
  obtain ⟨applied, loop, done⟩ := finished
  rw [applyHashes_eq sized (by simpa using fits)] at loop
  obtain ⟨rfl, rfl⟩ := Prod.mk.inj (Except.ok.inj done)
  obtain ⟨height, counted, rfl⟩ := map_eq_ok.mp loop
  exact ⟨rfl, height, counted, rfl⟩

/-- The window of part numbers that starts at a part and ends inside the resource. -/
def windowAt (r : Resource) (start : Nat) : List Nat :=
  List.range' start (min (start + r.flow.window) r.info.totalParts - start)

/-- The numbers of a window. -/
theorem mem_windowAt {r : Resource} {start pn : Nat} :
    pn ∈ r.windowAt start ↔ start ≤ pn ∧ pn < start + r.flow.window ∧ pn < r.info.totalParts := by
  simp only [windowAt, List.mem_range'_1]
  omega

/-- A window covers no more parts than its size. -/
theorem windowAt_length (r : Resource) (start : Nat) :
    (r.windowAt start).length ≤ r.flow.window := by
  simp only [windowAt, List.length_range']
  omega

/-- A window whose end fits the machine is computed without wrapping. -/
theorem windowFrom_eq {profile : Profile} {r : Resource} {start : Nat}
    (fits : start + r.flow.window < usizeRange) :
    r.windowFrom profile start = .ok (r.windowAt start) := by
  unfold windowFrom
  rw [Profile.add_ok profile fits]
  rfl

/-- A part that is still missing. -/
def missing (r : Resource) (pn : Nat) : Bool := r.receivedParts[pn]? == some none

/-- A part that is still missing and whose hash is not known either. -/
def unknown (r : Resource) (pn : Nat) : Bool :=
  r.missing pn && r.hashmap[pn]? == some FourBytes.zero

/-- The hash a part is asked for by. -/
def hashAt (r : Resource) (pn : Nat) : MapHash := r.hashmap.getD pn .zero

/-- The parts a request names: the missing ones before the first unknown one. -/
def wanted (r : Resource) (window : List Nat) : List Nat :=
  (window.takeWhile fun pn => !r.unknown pn).filter r.missing

/-- The scan of a window asks for the wanted parts and reports an unknown one. -/
theorem scanWindow_eq {r : Resource} (slots : r.receivedParts.length = r.info.totalParts)
    (sized : r.hashmap.length = r.info.totalParts) {window : List Nat} {requested : List MapHash}
    (inside : ∀ pn ∈ window, pn < r.info.totalParts)
    (room : requested.length + window.length ≤ r.flow.window) :
    scanWindow r window requested =
      .ok (requested ++ (r.wanted window).map r.hashAt, window.any r.unknown) := by
  induction window generalizing requested with
  | nil => simp [scanWindow, wanted]
  | cons pn rest ih =>
    have small := inside pn List.mem_cons_self
    have within : ∀ later ∈ rest, later < r.info.totalParts :=
      fun later member => inside later (List.mem_cons_of_mem _ member)
    simp only [List.length_cons] at room
    have slot := List.getElem?_eq_getElem (show pn < r.receivedParts.length by omega)
    have entry := List.getElem?_eq_getElem (show pn < r.hashmap.length by omega)
    simp only [scanWindow, index_ok slot, index_ok entry, Bind.bind, Except.bind]
    cases held : r.receivedParts[pn] with
    | some data =>
      -- A received part is passed over, and the window is never full before its end.
      have passed : r.missing pn = false := by simp [missing, slot, held]
      have known : r.unknown pn = false := by simp [unknown, passed]
      rw [if_neg (by simp), if_neg (by omega), ih within (by omega)]
      simp [wanted, passed, known]
    | none =>
      have absent : r.missing pn = true := by simp [missing, slot, held]
      by_cases zero : r.hashmap[pn].isZero
      · -- The first unknown part ends the scan.
        have unseen : r.unknown pn = true := by
          simp [unknown, absent, entry, FourBytes.isZero_iff.mp zero]
        simp [zero, wanted, unseen, pure, Except.pure]
      · have seen : r.unknown pn = false := by
          have apart : r.hashmap[pn] ≠ FourBytes.zero := fun same => zero (same ▸ rfl)
          simp [unknown, absent, entry, apart]
        have named : r.hashAt pn = r.hashmap[pn] := by simp [hashAt, List.getD, entry]
        by_cases full : requested.length + 1 ≥ r.flow.window
        · have last : rest = [] := List.length_eq_zero_iff.mp (by omega)
          simp [zero, full, last, wanted, seen, absent, named, pure, Except.pure]
        · simp only [Option.isNone_none, if_true, zero, full, if_false]
          rw [if_neg (by simp), ih within (by simpa using by omega)]
          simp [wanted, seen, absent, named]

/-- Building a request changes only the outstanding count and the wait for an update. -/
theorem buildRequest_frame {profile : Profile} {r final : Resource}
    {result : Except RnsError Bytes} (finished : buildRequest profile r = .ok (final, result)) :
    ∃ outstanding waiting, final = { r with
      outstandingParts := outstanding, waitingForHmu := waiting } := by
  -- Every exit writes the outstanding parts and the flag at most.
  simp only [buildRequest] at finished
  split at finished
  · obtain ⟨rfl, -⟩ := Prod.mk.inj (Except.ok.inj finished)
    exact ⟨_, _, rfl⟩
  · simp only [bind_eq_ok] at finished
    obtain ⟨height, -, window, -, ⟨requested, exhausted⟩, -, finished⟩ := finished
    simp only at finished
    split at finished
    · simp only [bind_eq_ok] at finished
      obtain ⟨lastHash, -, finished⟩ := finished
      obtain ⟨rfl, -⟩ := Prod.mk.inj (Except.ok.inj finished)
      exact ⟨_, _, rfl⟩
    · obtain ⟨rfl, -⟩ := Prod.mk.inj (Except.ok.inj finished)
      exact ⟨_, _, rfl⟩

/-- Starting to receive applies the first hashes and then, unless they are refused, asks. -/
theorem startReceive_cases {profile : Profile} {r final : Resource} {initialHashmap : Bytes}
    {now : Instant} {result : Except RnsError Bytes}
    (finished : startReceive profile r initialHashmap now = .ok (final, result)) :
    ∃ applied answer, applyHashmap profile { r with
        status := .transferring, timing := { r.timing with lastActivity := now } } 0
        initialHashmap = .ok (applied, answer) ∧
      ((∃ fault, answer = .error fault ∧ final = applied ∧ result = .error fault) ∨
        (answer = .ok () ∧ buildRequest profile applied = .ok (final, result))) := by
  -- The request is built only if the hashmap could be applied.
  simp only [startReceive, bind_eq_ok] at finished
  obtain ⟨⟨applied, answer⟩, applying, finished⟩ := finished
  refine ⟨applied, answer, applying, ?_⟩
  cases answer with
  | error fault =>
    obtain ⟨rfl, rfl⟩ := Prod.mk.inj (Except.ok.inj finished)
    exact .inl ⟨fault, rfl, rfl, rfl⟩
  | ok done => exact .inr ⟨rfl, finished⟩

/-- Measuring a response changes only the timers and the window, which stays in its bounds. -/
theorem measureResponse_frame {profile : Profile} {r final : Resource} {partLen : Nat}
    {now : Instant} (bounded : r.flow.Bounded)
    (finished : measureResponse profile r partLen now = .ok final) :
    ∃ timing flow, final = { r with timing := timing, flow := flow } ∧ flow.Bounded := by
  -- A measured round may promote the window, which keeps its bounds.
  unfold measureResponse at finished
  split at finished
  · simp only at finished
    split at finished
    · simp only [bind_eq_ok] at finished
      obtain ⟨cost, -, flow, counted, finished⟩ := finished
      obtain ⟨promoted, same, kept⟩ := bounded.countFastRound profile
        ((UInt64.ofNat cost).toFloat / (now.durationSince _).asSecsF64)
      obtain rfl := Except.ok.inj (same.symm.trans counted)
      obtain rfl := Except.ok.inj finished
      exact ⟨_, _, rfl, kept⟩
    · obtain rfl := Except.ok.inj finished
      exact ⟨_, _, rfl, bounded⟩
  · obtain rfl := Except.ok.inj finished
    exact ⟨_, _, rfl, bounded⟩

/-- Without a request on record there is nothing to measure. -/
theorem measureResponse_idle {profile : Profile} {r : Resource} {partLen : Nat} {now : Instant}
    (idle : r.timing.reqSent = none) : measureResponse profile r partLen now = .ok r := by
  unfold measureResponse
  rw [idle]
  cases r.timing.reqResp <;> rfl

/-- The height loop climbs to the end of the filled prefix. -/
theorem advanceHeight_eq {profile : Profile} {slots : List (Option Bytes)} {totalParts : Nat}
    (sized : slots.length = totalParts) (small : totalParts < isizeRange) {fuel height : Nat}
    (below : height ≤ filledPrefix slots) (enough : filledPrefix slots ≤ height + fuel) :
    advanceHeight profile slots totalParts fuel ((height : Int) - 1) =
      .ok ((filledPrefix slots : Int) - 1) := by
  have inside := filledPrefix_le_length slots
  induction fuel generalizing height with
  | zero =>
    have same : height = filledPrefix slots := by omega
    rw [same]
    rfl
  | succ fuel ih =>
    have step : profile.addSigned ((height : Int) - 1) 1 = .ok (height : Int) := by
      rw [Profile.addSigned_ok profile (by unfold isizeRange; omega) (by unfold isizeRange at *; omega)]
      congr 1
      omega
    have cast : asUsize (height : Int) = height :=
      asUsize_natCast (by unfold usizeRange; unfold isizeRange at small; omega)
    simp only [advanceHeight, step, cast, Bind.bind, Except.bind]
    rcases Nat.lt_or_eq_of_le below with before | last
    · -- Inside the prefix the slot is filled and the loop goes on.
      obtain ⟨item, found⟩ := le_filledPrefix_iff.mp (Nat.le_refl _) height before
      have again := ih (show height + 1 ≤ filledPrefix slots by omega) (by omega)
      have shifted : ((height + 1 : Nat) : Int) - 1 = (height : Int) := by omega
      rw [shifted] at again
      rw [if_pos (by omega)]
      simp only [index_ok found, Option.isSome_some, if_true]
      exact again
    · -- At its end the buffer is over or the slot is empty.
      by_cases unfinished : height < totalParts
      · have slot := List.getElem?_eq_getElem (show height < slots.length by omega)
        rw [if_pos unfinished]
        simp only [index_ok slot]
        cases held : slots[height] with
        | none => simp [last]
        | some item =>
          rw [held, last] at slot
          exact absurd slot (getElem?_filledPrefix slots item)
      · rw [if_neg unfinished, last]

/-- The search of a window finds the first missing part with the hash. -/
theorem placePart_eq {profile : Profile} {r : Resource} {partHash : MapHash} {partData : Bytes}
    (slots : r.receivedParts.length = r.info.totalParts)
    (sized : r.hashmap.length = r.info.totalParts) {window : List Nat}
    (inside : ∀ i ∈ window, i < r.info.totalParts) :
    placePart profile r partHash partData window =
      match window.find? fun i => r.hashmap[i]? == some partHash && r.missing i with
      | none => .ok (r, false)
      | some i => (acceptPart profile r i partData).map fun placed => (placed, true) := by
  -- The loop stops at the first place that has the hash and no part.
  induction window with
  | nil => rfl
  | cons i rest ih =>
    have small := inside i List.mem_cons_self
    have later := ih fun j member => inside j (List.mem_cons_of_mem _ member)
    have slot := List.getElem?_eq_getElem (show i < r.receivedParts.length by omega)
    have entry := List.getElem?_eq_getElem (show i < r.hashmap.length by omega)
    simp only [placePart, entry, index_ok slot, Bind.bind, Except.bind, List.find?_cons, missing,
      slot]
    by_cases same : r.hashmap[i] = partHash
    · cases held : r.receivedParts[i] with
      | none =>
        simp only [same, if_true, Option.isNone_none, BEq.rfl, Bool.and_self]
        cases acceptPart profile r i partData <;> rfl
      | some data => simpa [same, missing] using later
    · have apart : (r.hashmap[i] == partHash) = false := beq_eq_false_iff_ne.mpr same
      simpa [same, apart, missing] using later

/-- The fields that placing a part never touches. -/
def outside (r : Resource) :=
  (r.status, r.info, r.parts, r.hashmap, r.hashmapHeight, r.sentParts,
    r.receiverMinConsecutiveHeight, r.timing.reqSent)

/-- Measuring a response touches none of them. -/
theorem measureResponse_outside {profile : Profile} {r final : Resource} {partLen : Nat}
    {now : Instant} (finished : measureResponse profile r partLen now = .ok final) :
    final.outside = r.outside := by
  -- The flow and the timing are all that is measured.
  unfold measureResponse at finished
  split at finished
  · simp only at finished
    split at finished
    · simp only [bind_eq_ok] at finished
      obtain ⟨cost, -, flow, -, finished⟩ := finished
      obtain rfl := Except.ok.inj finished
      rfl
    · obtain rfl := Except.ok.inj finished
      rfl
  · obtain rfl := Except.ok.inj finished
    rfl

/-- Accepting a part touches none of them. -/
theorem acceptPart_outside {profile : Profile} {r final : Resource} {i : Nat} {partData : Bytes}
    (finished : acceptPart profile r i partData = .ok final) : final.outside = r.outside := by
  simp only [acceptPart, bind_eq_ok] at finished
  obtain ⟨bytes, -, count, -, next, -, height, -, flow, -, finished⟩ := finished
  obtain rfl := Except.ok.inj finished
  rfl

/-- Searching for a part's slot touches none of them. -/
theorem placePart_outside {profile : Profile} {r final : Resource} {partHash : MapHash}
    {partData : Bytes} {window : List Nat} {found : Bool}
    (finished : placePart profile r partHash partData window = .ok (final, found)) :
    final.outside = r.outside := by
  -- The walk goes on past every place but the one where the part is accepted.
  induction window with
  | nil =>
    obtain ⟨rfl, -⟩ := Prod.mk.inj (Except.ok.inj finished)
    rfl
  | cons i rest ih =>
    unfold placePart at finished
    split at finished
    · exact ih finished
    · split at finished
      · simp only [bind_eq_ok] at finished
        obtain ⟨slot, -, finished⟩ := finished
        split at finished
        · simp only [bind_eq_ok] at finished
          obtain ⟨accepted, accepting, finished⟩ := finished
          obtain ⟨rfl, -⟩ := Prod.mk.inj (Except.ok.inj finished)
          exact acceptPart_outside accepting
        · exact ih finished
      · exact ih finished

/-- Receiving a part only sets the status among them, of a transfer that had not failed. -/
theorem receivePart_outside {profile : Profile} {r final : Resource} {partData : Bytes}
    {now : Instant} {found : Bool}
    (finished : receivePart profile r partData now = .ok (final, found)) :
    final.outside = outside { r with
      status := if r.status = .failed then .failed else .transferring } := by
  -- Of what is seen from outside, the search decides the status, and nothing changes the rest.
  simp only [receivePart, bind_eq_ok] at finished
  obtain ⟨measured, measuring, ⟨placed, hit⟩, searching, finished⟩ := finished
  obtain ⟨rfl, -⟩ := Prod.mk.inj (Except.ok.inj finished)
  have same : measured.outside = r.outside := (measureResponse_outside measuring).trans rfl
  have status : measured.status = r.status := congrArg Prod.fst same
  unfold searchPart at searching
  rw [status] at searching
  split at searching
  · rename_i failed
    obtain ⟨rfl, -⟩ := Prod.mk.inj (Except.ok.inj searching)
    rw [if_pos failed, ← failed]
    exact same
  · rename_i live
    simp only [bind_eq_ok] at searching
    obtain ⟨height, -, window, -, searching⟩ := searching
    rw [if_neg live]
    have rest : measured.outside.2 = r.outside.2 := congrArg Prod.snd same
    exact (placePart_outside searching).trans (Prod.ext rfl rest)

/-- A timeout does nothing, gives up, spends a retry, or shrinks the window and asks again. -/
theorem checkTimeout_cases {profile : Profile} {r final : Resource} {now : Instant}
    {result : Except RnsError ResourceTimeoutAction}
    (finished : checkTimeout profile r now = .ok (final, result)) :
    (final = r ∧ result = .ok .none) ∨
    (final = { r with status := .failed } ∧ result = .ok .failed) ∨
    (∃ retriesLeft maxAdvRetries, final = { r with
      timing := { r.timing with retriesLeft := retriesLeft, maxAdvRetries := maxAdvRetries } } ∧
      (result = .ok .retryAdvertisement ∨ result = .ok .retryProof)) ∨
    (r.status = .transferring ∧ ∃ retriesLeft flow request,
      r.flow.shrink profile = .ok flow ∧
      buildRequest profile { r with
        flow := flow, waitingForHmu := false,
        timing := { r.timing with retriesLeft := retriesLeft } } = .ok (final, request) ∧
      result = request.map .retryPartRequest) := by
  -- Each of the three statuses that wait has its own retry, and fails without any left.
  unfold checkTimeout at finished
  split at finished
  · simp only [bind_eq_ok] at finished
    obtain ⟨wait, -, finished⟩ := finished
    split at finished
    · simp only [retryAdvertisement] at finished
      split at finished
      · obtain ⟨rfl, rfl⟩ := Prod.mk.inj (Except.ok.inj finished)
        exact .inr (.inl ⟨rfl, rfl⟩)
      · simp only [bind_eq_ok] at finished
        obtain ⟨left, -, finished⟩ := finished
        obtain ⟨rfl, rfl⟩ := Prod.mk.inj (Except.ok.inj finished)
        exact .inr (.inr (.inl ⟨_, _, rfl, .inl rfl⟩))
    · obtain ⟨rfl, rfl⟩ := Prod.mk.inj (Except.ok.inj finished)
      exact .inl ⟨rfl, rfl⟩
  · -- Only a transfer asks again, with a smaller window.
    rename_i transferring
    simp only [bind_eq_ok] at finished
    obtain ⟨wait, -, finished⟩ := finished
    split at finished
    · simp only [retryPartRequest] at finished
      split at finished
      · obtain ⟨rfl, rfl⟩ := Prod.mk.inj (Except.ok.inj finished)
        exact .inr (.inl ⟨rfl, rfl⟩)
      · simp only [bind_eq_ok] at finished
        obtain ⟨left, -, flow, shrunk, ⟨built, request⟩, asked, finished⟩ := finished
        obtain ⟨rfl, rfl⟩ := Prod.mk.inj (Except.ok.inj finished)
        exact .inr (.inr (.inr ⟨transferring, left, flow, request, shrunk, asked, rfl⟩))
    · obtain ⟨rfl, rfl⟩ := Prod.mk.inj (Except.ok.inj finished)
      exact .inl ⟨rfl, rfl⟩
  · simp only [bind_eq_ok] at finished
    obtain ⟨wait, -, finished⟩ := finished
    split at finished
    · simp only [retryProof] at finished
      split at finished
      · obtain ⟨rfl, rfl⟩ := Prod.mk.inj (Except.ok.inj finished)
        exact .inr (.inl ⟨rfl, rfl⟩)
      · simp only [bind_eq_ok] at finished
        obtain ⟨left, -, finished⟩ := finished
        obtain ⟨rfl, rfl⟩ := Prod.mk.inj (Except.ok.inj finished)
        exact .inr (.inr (.inl ⟨_, _, rfl, .inr rfl⟩))
    · obtain ⟨rfl, rfl⟩ := Prod.mk.inj (Except.ok.inj finished)
      exact .inl ⟨rfl, rfl⟩
  · obtain ⟨rfl, rfl⟩ := Prod.mk.inj (Except.ok.inj finished)
    exact .inl ⟨rfl, rfl⟩

end Resource

end Reticulum
