import ReticulumSdk.Resource.Sender

/-! What each operation of the sending side changes, read off the code once. -/

namespace Reticulum

open Resource

/-- What a part is, whether or not it was sent. -/
def ResourcePart.content (part : ResourcePart) : Bytes × MapHash := (part.data, part.mapHash)

namespace Resource

/-- What the parts of a resource are, in order. -/
def contents (r : Resource) : List (Bytes × MapHash) := r.parts.map ResourcePart.content

/-- Resources with the same contents have as many parts. -/
theorem parts_length_of_contents {r final : Resource} (same : final.contents = r.contents) :
    final.parts.length = r.parts.length := by
  simpa [contents] using congrArg List.length same

/-- Marking a part as sent does not change what the parts are. -/
theorem map_content_set {parts : List ResourcePart} {i : Nat} {part : ResourcePart}
    (found : parts[i]? = some part) :
    (parts.set i { part with sent := true }).map ResourcePart.content =
      parts.map ResourcePart.content := by
  -- Only the mark of the part changes, which is not in its content.
  obtain ⟨inside, same⟩ := List.getElem?_eq_some_iff.mp found
  have mapped : i < (parts.map ResourcePart.content).length := by simpa using inside
  have unchanged : ResourcePart.content { part with sent := true } =
      (parts.map ResourcePart.content)[i] := by
    simp [ResourcePart.content, same]
  rw [List.map_set, unchanged, List.set_getElem_self]

/-- Sending parts changes their sent marks, the count of them and two timers. -/
theorem sendParts_frame {profile : Profile} {mapHashes : List MapHash} {now : Instant}
    {window : List Nat} {r final : Resource} {chosen : List Bytes}
    (finished : sendParts profile mapHashes now window r = .ok (final, chosen)) :
    ∃ parts sentParts active last, final = { r with
        parts := parts, sentParts := sentParts,
        timing := { r.timing with lastActivity := active, lastPartSent := last } } ∧
      final.contents = r.contents := by
  -- Each part that goes out is marked, and the loop ends behind the last part.
  induction window generalizing r chosen with
  | nil =>
    obtain ⟨rfl, -⟩ := Prod.mk.inj (Except.ok.inj finished)
    exact ⟨_, _, _, _, rfl, rfl⟩
  | cons i rest ih =>
    unfold sendParts at finished
    split at finished
    · obtain ⟨rfl, -⟩ := Prod.mk.inj (Except.ok.inj finished)
      exact ⟨_, _, _, _, rfl, rfl⟩
    · rename_i part found
      split at finished
      · simp only [markSent, bind_eq_ok] at finished
        obtain ⟨marked, ⟨count, -, same⟩, ⟨sent, later⟩, loop, done⟩ := finished
        obtain rfl := Except.ok.inj same
        obtain ⟨rfl, -⟩ := Prod.mk.inj (Except.ok.inj done)
        obtain ⟨parts, sentParts, active, last, rfl, kept⟩ := ih loop
        exact ⟨_, _, _, _, rfl, kept.trans (map_content_set found)⟩
      · exact ih finished

/-- Answering the hashmap half moves the search start and may fail the transfer. -/
theorem answerHashmap_cases {profile : Profile} {r final : Resource} {window : List Nat}
    {lastMapHash : Option Bytes} {answer : Except RnsError (Option HmuPacket)}
    (finished : answerHashmap profile r window lastMapHash = .ok (final, answer)) :
    (final = r ∧ lastMapHash = none ∧ answer = .ok none) ∨
    ∃ named, lastMapHash = some named ∧
      let hml := hashmapMaxLen r.info.sdu
      let partIndex := (findAfter r.parts named window).getD r.receiverMinConsecutiveHeight
      let moved := { r with receiverMinConsecutiveHeight := partIndex - (1 + WINDOW_MAX) }
      ((hml > 0 ∧ partIndex % hml ≠ 0) ∧ final = { moved with status := .failed } ∧
        answer = .error .outOfMemory) ∨
      (¬ (hml > 0 ∧ partIndex % hml ≠ 0) ∧ final = moved ∧
        ∃ update, moved.segmentFrom profile partIndex = .ok update ∧ answer = .ok (some update)) := by
  -- Where a hash is named, its place in its segment decides.
  cases lastMapHash with
  | none =>
    obtain ⟨rfl, rfl⟩ := Prod.mk.inj (Except.ok.inj finished)
    exact .inl ⟨rfl, rfl, rfl⟩
  | some named =>
    refine .inr ⟨named, rfl, ?_⟩
    simp only [answerHashmap] at finished
    split at finished
    · rename_i misaligned
      obtain ⟨rfl, rfl⟩ := Prod.mk.inj (Except.ok.inj finished)
      exact .inl ⟨misaligned, rfl, rfl⟩
    · rename_i aligned
      simp only [bind_eq_ok] at finished
      obtain ⟨update, cut, finished⟩ := finished
      obtain ⟨rfl, rfl⟩ := Prod.mk.inj (Except.ok.inj finished)
      exact .inr ⟨aligned, rfl, update, cut, rfl⟩

/-- A request is ignored: already handled, empty, or too short for its kind. -/
def ignores (r : Resource) (requestData : Bytes) (packetHash : Option Hash) : Prop :=
  r.seenRequest packetHash = true ∨ requestData = [] ∨
    requestData.length <
      (if requestData[0]? = some HASHMAP_IS_EXHAUSTED then 1 + MAPHASH_LEN + HASH_SIZE
       else 1 + HASH_SIZE)

/-- The checks on the request bytes never fault, and reject exactly empty and short requests. -/
theorem parseRequest_eq (requestData : Bytes) :
    parseRequest requestData = .ok (
      if requestData = [] then .error .invalidArgument
      else if requestData[0]? = some HASHMAP_IS_EXHAUSTED then
        if requestData.length < 1 + MAPHASH_LEN + HASH_SIZE then .error .packetError
        else .ok {
          lastMapHash := some ((requestData.take (1 + MAPHASH_LEN)).drop 1)
          mapHashes := FourBytes.chunks (requestData.drop (1 + MAPHASH_LEN + HASH_SIZE)) }
      else
        if requestData.length < 1 + HASH_SIZE then .error .packetError
        else .ok {
          lastMapHash := none
          mapHashes := FourBytes.chunks (requestData.drop (1 + HASH_SIZE)) }) := by
  -- The lengths that are checked make every cut fit.
  cases requestData with
  | nil => rfl
  | cons first rest =>
    have read : index (first :: rest) 0 = .ok first := index_ok rfl
    simp only [parseRequest, List.isEmpty_cons, Bool.false_eq_true, if_false, read, reduceCtorEq,
      List.getElem?_cons_zero, Option.some.injEq, Bind.bind, Except.bind]
    split
    · split
      · rfl
      · rename_i long
        rw [slice_ok (by decide) (by omega), slice_ok (by omega) (Nat.le_refl _)]
        simp only [List.take_length]
        rfl
    · split
      · rfl
      · rename_i long
        rw [slice_ok (by omega) (Nat.le_refl _)]
        simp only [List.take_length]
        rfl

/-- Remembering a request changes only the list of request hashes. -/
theorem rememberRequest_frame (r : Resource) (packetHash : Option Hash) :
    ∃ hashes, r.rememberRequest packetHash = { r with reqHashlist := hashes } := by
  cases packetHash with
  | none => exact ⟨_, rfl⟩
  | some hash => exact ⟨_, rfl⟩

/-- Beginning an answer sets the status, the round trip and the retry budget. -/
theorem beginRequest_frame (r : Resource) (now : Instant) :
    ∃ rtt, r.beginRequest now = { r with
      status := .transferring,
      timing := { r.timing with rtt := rtt, retriesLeft := r.timing.maxRetries } } :=
  ⟨_, rfl⟩

/-- An answer changes the sender's fields, and leaves the status as it was, waiting or failed. -/
theorem answerRequest_frame {profile : Profile} {r final : Resource} {request : PartRequest}
    {now : Instant} {result : Except RnsError ResourceRequestResult}
    (finished : answerRequest profile r request now = .ok (final, result)) :
    ∃ status parts sentParts height active last retriesLeft, final = { r with
        status := status, parts := parts, sentParts := sentParts,
        receiverMinConsecutiveHeight := height,
        timing := { r.timing with
          lastActivity := active, lastPartSent := last, retriesLeft := retriesLeft } } ∧
      final.contents = r.contents ∧
      (status = r.status ∨ status = .awaitingProof ∨ status = .failed) := by
  simp only [answerRequest, bind_eq_ok] at finished
  obtain ⟨window, -, ⟨sent, chosen⟩, sending, ⟨answered, answer⟩, answering, finished⟩ := finished
  obtain ⟨parts, sentParts, active, last, rfl, kept⟩ := sendParts_frame sending
  have moved : ∃ status height, answered = { r with
      status := status, parts := parts, sentParts := sentParts,
      receiverMinConsecutiveHeight := height,
      timing := { r.timing with lastActivity := active, lastPartSent := last } } ∧
      (status = r.status ∨ status = .failed) := by
    obtain ⟨rfl, -, -⟩ | ⟨named, -, ⟨-, rfl, -⟩ | ⟨-, rfl, -⟩⟩ := answerHashmap_cases answering
    · exact ⟨_, _, rfl, .inl rfl⟩
    · exact ⟨_, _, rfl, .inr rfl⟩
    · exact ⟨_, _, rfl, .inl rfl⟩
  obtain ⟨status, height, rfl, ending⟩ := moved
  have ends : status = r.status ∨ status = .awaitingProof ∨ status = .failed := by
    rcases ending with same | failed
    · exact .inl same
    · exact .inr (.inr failed)
  cases answer with
  | error fault =>
    obtain ⟨rfl, -⟩ := Prod.mk.inj (Except.ok.inj finished)
    exact ⟨_, _, _, _, _, _, _, rfl, kept, ends⟩
  | ok update =>
    -- Only an answer that completes the parts moves on to the proof.
    simp only [finishRequest] at finished
    split at finished
    · obtain ⟨rfl, -⟩ := Prod.mk.inj (Except.ok.inj finished)
      exact ⟨_, _, _, _, _, _, _, rfl, kept, .inr (.inl rfl)⟩
    · obtain ⟨rfl, -⟩ := Prod.mk.inj (Except.ok.inj finished)
      exact ⟨_, _, _, _, _, _, _, rfl, kept, ends⟩

/-- A request meets a failed transfer, was seen before, is rejected, or is answered. -/
theorem handleRequest_cases {profile : Profile} {r final : Resource} {requestData : Bytes}
    {packetHash : Option Hash} {now : Instant} {result : Except RnsError ResourceRequestResult}
    (finished : handleRequest profile r requestData packetHash now = .ok (final, result)) :
    (r.status = .failed ∧ final = r ∧ result = .error .linkClosed) ∨
    (r.status ≠ .failed ∧ r.seenRequest packetHash = true ∧ final = r ∧
      result = .ok { parts := [], hmuPacket := none, allSent := false }) ∨
    (r.status ≠ .failed ∧ r.seenRequest packetHash = false ∧ ∃ fault,
      parseRequest requestData = .ok (.error fault) ∧
      final = r.rememberRequest packetHash ∧ result = .error fault) ∨
    (r.status ≠ .failed ∧ r.seenRequest packetHash = false ∧ ∃ request,
      parseRequest requestData = .ok (.ok request) ∧
      answerRequest profile ((r.rememberRequest packetHash).beginRequest now) request now =
        .ok (final, result)) := by
  -- The exits come in the order in which the request is checked.
  unfold handleRequest at finished
  split at finished
  · rename_i failed
    obtain ⟨rfl, rfl⟩ := Prod.mk.inj (Except.ok.inj finished)
    exact .inl ⟨failed, rfl, rfl⟩
  · rename_i live
    split at finished
    · rename_i seen
      obtain ⟨rfl, rfl⟩ := Prod.mk.inj (Except.ok.inj finished)
      exact .inr (.inl ⟨live, seen, rfl, rfl⟩)
    · rename_i fresh
      rw [Bool.not_eq_true] at fresh
      simp only [bind_eq_ok] at finished
      obtain ⟨parsed, parsing, finished⟩ := finished
      cases parsed with
      | error fault =>
        obtain ⟨rfl, rfl⟩ := Prod.mk.inj (Except.ok.inj finished)
        exact .inr (.inr (.inl ⟨live, fresh, fault, parsing, rfl, rfl⟩))
      | ok request => exact .inr (.inr (.inr ⟨live, fresh, request, parsing, finished⟩))

/-- Handling a request changes the sender's fields only. -/
theorem handleRequest_frame {profile : Profile} {r final : Resource} {requestData : Bytes}
    {packetHash : Option Hash} {now : Instant} {result : Except RnsError ResourceRequestResult}
    (finished : handleRequest profile r requestData packetHash now = .ok (final, result)) :
    ∃ status parts sentParts height hashes rtt active last retriesLeft, final = { r with
        status := status, parts := parts, sentParts := sentParts,
        receiverMinConsecutiveHeight := height, reqHashlist := hashes,
        timing := { r.timing with
          rtt := rtt, lastActivity := active, lastPartSent := last, retriesLeft := retriesLeft } } ∧
      final.contents = r.contents := by
  -- Remembering the request changes the list of hashes, and only a new request is answered.
  obtain ⟨hashes, remembered⟩ := rememberRequest_frame r packetHash
  obtain ⟨-, rfl, -⟩ | ⟨-, -, rfl, -⟩ | ⟨-, -, fault, -, rfl, -⟩ | ⟨-, -, request, -, answered⟩ :=
    handleRequest_cases finished
  · exact ⟨_, _, _, _, _, _, _, _, _, rfl, rfl⟩
  · exact ⟨_, _, _, _, _, _, _, _, _, rfl, rfl⟩
  · rw [remembered]
    exact ⟨_, _, _, _, _, _, _, _, _, rfl, rfl⟩
  · rw [remembered] at answered
    obtain ⟨status, parts, sentParts, height, active, last, retriesLeft, rfl, kept, -⟩ :=
      answerRequest_frame answered
    exact ⟨_, _, _, _, _, _, _, _, _, rfl, kept⟩

/-- Sending parts never overflows their count, which stays the number of parts marked sent. -/
theorem sendParts_ok (profile : Profile) (mapHashes : List MapHash) (now : Instant)
    (window : List Nat) {r : Resource} (counted : r.sentParts = r.parts.countP (·.sent))
    (small : r.parts.length < usizeRange) :
    ∃ final chosen, sendParts profile mapHashes now window r = .ok (final, chosen) ∧
      final.sentParts = final.parts.countP (·.sent) := by
  induction window generalizing r with
  | nil => exact ⟨r, [], rfl, counted⟩
  | cons i rest ih =>
    unfold sendParts
    cases found : r.parts[i]? with
    | none => exact ⟨r, [], rfl, counted⟩
    | some part =>
      simp only
      split
      · obtain ⟨inside, same⟩ := List.getElem?_eq_some_iff.mp found
        -- A part marked for the first time leaves room for one more in the count.
        have marked : ∃ count, countSent profile r.sentParts part = .ok count ∧
            count = (r.parts.set i { part with sent := true }).countP (·.sent) := by
          unfold countSent
          cases sent : part.sent with
          | true =>
            have present : 0 < r.parts.countP (·.sent) :=
              List.countP_pos_iff.mpr ⟨part, List.mem_of_getElem? found, sent⟩
            refine ⟨r.sentParts, rfl, ?_⟩
            simp only [List.countP_set inside, same, sent, if_true, counted]
            omega
          | false =>
            have fewer : r.parts.countP (·.sent) < r.parts.length := by
              refine Nat.lt_of_le_of_ne List.countP_le_length fun all => ?_
              have every := List.countP_eq_length.mp all part (List.mem_of_getElem? found)
              simp [sent] at every
            refine ⟨r.sentParts + 1, Profile.add_ok profile (by omega), ?_⟩
            simp [List.countP_set inside, same, sent, counted]
        obtain ⟨count, counting, total⟩ := marked
        obtain ⟨final, chosen, sending, kept⟩ := ih
          (r := { r with
            sentParts := count, parts := r.parts.set i { part with sent := true },
            timing := { r.timing with lastActivity := now, lastPartSent := some now } })
          total (by simpa using small)
        refine ⟨final, part.data :: chosen, ?_, kept⟩
        simp only [markSent, counting, sending, Bind.bind, Except.bind, pure, Except.pure]
      · exact ih counted small

/-- A match names a part of the window and returns the index after it. -/
theorem findAfter_some {parts : List ResourcePart} {named : Bytes} {window : List Nat} {k : Nat}
    (found : findAfter parts named window = some k) :
    ∃ i part, k = i + 1 ∧ i ∈ window ∧ parts[i]? = some part ∧ part.mapHash.toBytes = named := by
  -- The first part with the hash is the one named.
  induction window with
  | nil => cases found
  | cons i rest ih =>
    unfold findAfter at found
    split at found
    · rename_i part located
      split at found
      · rename_i same
        obtain rfl := Option.some.inj found
        exact ⟨i, part, rfl, List.mem_cons_self, located, same⟩
      · obtain ⟨j, later, rfl, member, rest⟩ := ih found
        exact ⟨j, later, rfl, List.mem_cons_of_mem _ member, rest⟩
    · obtain ⟨j, later, rfl, member, rest⟩ := ih found
      exact ⟨j, later, rfl, List.mem_cons_of_mem _ member, rest⟩

/-- The segment an index falls into. -/
def segmentOf (linkMdu partIndex : Nat) : Nat :=
  if hashmapMaxLen linkMdu > 0 then partIndex / hashmapMaxLen linkMdu else 0

/-- A segment does not begin behind an index that falls into it. -/
theorem segmentOf_mul_le (linkMdu partIndex : Nat) :
    segmentOf linkMdu partIndex * hashmapMaxLen linkMdu ≤ partIndex := by
  unfold segmentOf
  split
  · exact Nat.div_mul_le_self _ _
  · omega

/-- The number of a segment is at most any index that falls into it. -/
theorem segmentOf_le (linkMdu partIndex : Nat) : segmentOf linkMdu partIndex ≤ partIndex := by
  unfold segmentOf
  split
  · exact Nat.div_le_self _ _
  · omega

/-- The hashes of one segment. -/
def segmentHashes (r : Resource) (segment : Nat) : List MapHash :=
  let hml := hashmapMaxLen r.info.sdu
  (r.hashmap.take (min ((segment + 1) * hml) r.info.totalParts)).drop (segment * hml)

/-- Cutting a segment out of the hashmap never overflows. -/
theorem segmentFrom_eq {profile : Profile} {r : Resource} {partIndex : Nat}
    (mdu : r.info.sdu < usizeRange) (small : r.info.totalParts < 2 ^ 60)
    (inside : partIndex ≤ r.info.totalParts) :
    r.segmentFrom profile partIndex = .ok {
      hash := r.info.hash
      body := .array [.integer (segmentOf r.info.sdu partIndex),
        .binary ((r.segmentHashes (segmentOf r.info.sdu partIndex)).flatMap FourBytes.toBytes)] } := by
  -- The numbers of parts and of bytes are small enough for every product.
  have entries : hashmapMaxLen r.info.sdu < 2 ^ 62 := by
    unfold hashmapMaxLen MAPHASH_LEN ADV_OVERHEAD
    unfold usizeRange at mdu
    omega
  have start := segmentOf_mul_le r.info.sdu partIndex
  have stop : (segmentOf r.info.sdu partIndex + 1) * hashmapMaxLen r.info.sdu < usizeRange := by
    rw [Nat.succ_mul]
    unfold usizeRange
    omega
  have next : segmentOf r.info.sdu partIndex + 1 < usizeRange := by
    have below := segmentOf_le r.info.sdu partIndex
    unfold usizeRange
    omega
  have multiple : profile.mul usizeRange (segmentOf r.info.sdu partIndex) (hashmapMaxLen r.info.sdu)
      = .ok (segmentOf r.info.sdu partIndex * hashmapMaxLen r.info.sdu) :=
    Profile.mul_ok profile (by unfold usizeRange; omega)
  unfold segmentFrom
  simp only [segmentOf] at multiple next stop ⊢
  simp only [multiple, Profile.add_ok profile next, Profile.mul_ok profile stop, Bind.bind,
    Except.bind]
  rfl

/-- The parts the sender looks at, without wrapping. -/
def sendWindowAt (r : Resource) : List Nat :=
  let start := r.receiverMinConsecutiveHeight
  List.range' start (min (start + collisionGuardSize r.info.sdu) r.info.totalParts - start)

/-- The numbers of the sender's window. -/
theorem mem_sendWindowAt {r : Resource} {i : Nat} :
    i ∈ r.sendWindowAt ↔ r.receiverMinConsecutiveHeight ≤ i ∧
      i < r.receiverMinConsecutiveHeight + collisionGuardSize r.info.sdu ∧
      i < r.info.totalParts := by
  simp only [sendWindowAt, List.mem_range'_1]
  omega

/-- The sender's window is computed without overflow. -/
theorem sendWindow_eq {profile : Profile} {r : Resource} (mdu : r.info.sdu < usizeRange)
    (small : r.info.totalParts < 2 ^ 60)
    (inside : r.receiverMinConsecutiveHeight ≤ r.info.totalParts) :
    r.sendWindow profile = .ok r.sendWindowAt := by
  -- The guard is a few hundred parts at the most that an interface can carry.
  have fits : r.receiverMinConsecutiveHeight + collisionGuardSize r.info.sdu < usizeRange := by
    unfold collisionGuardSize hashmapMaxLen WINDOW_MAX WINDOW_MAX_FAST MAPHASH_LEN ADV_OVERHEAD
    unfold usizeRange at *
    omega
  simp only [sendWindow, Profile.add_ok profile fits]
  rfl

end Resource

end Reticulum
