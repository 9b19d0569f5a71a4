import ReticulumSdk.Resource.Delivery
import ReticulumSdk.Resource.RequestLaws

/-! How the order in which requests arrive decides what the sender finds. -/

namespace Reticulum

open Resource Slots

namespace Resource

section SenderSearch

variable {sender : Resource}

/-- Inside the sender's window a hash names one part. -/
theorem sendWindow_unique (outgoing : sender.Outgoing) {i j : Nat} {first second : Bytes × MapHash}
    (here : i ∈ sender.sendWindowAt) (there : j ∈ sender.sendWindowAt)
    (firstAt : sender.contents[i]? = some first) (secondAt : sender.contents[j]? = some second)
    (same : first.2 = second.2) : i = j := by
  -- Two parts of the window are near each other, and near parts have different hashes.
  have low := mem_sendWindowAt.mp here
  have high := mem_sendWindowAt.mp there
  rcases Nat.lt_trichotomy i j with less | equal | more
  · exact absurd same (outgoing.apart i j first second less (by omega) firstAt secondAt)
  · exact equal
  · exact absurd same.symm (outgoing.apart j i second first more (by omega) secondAt firstAt)

/-- The content behind a hash of the sender. -/
theorem content_of_hash (outgoing : sender.Outgoing) {i : Nat} {mapHash : MapHash}
    (hash : sender.hashmap[i]? = some mapHash) :
    ∃ content, sender.contents[i]? = some content ∧ content.2 = mapHash := by
  rw [outgoing.hashes, List.getElem?_map, Option.map_eq_some_iff] at hash
  exact hash

/-- Asked for parts of its window by their hashes, the sender chooses just these. -/
theorem chosen_eq (outgoing : sender.Outgoing) {indices : List Nat} {hashOf : Nat → MapHash}
    (sorted : indices.Pairwise (· < ·)) (inside : ∀ i ∈ indices, i ∈ sender.sendWindowAt)
    (hashes : ∀ i ∈ indices, sender.hashmap[i]? = some (hashOf i)) :
    sender.chosen (indices.map hashOf) = indices := by
  -- Both lists are sorted, so it is enough that they have the same members.
  have window : (sender.chosen (indices.map hashOf)).Pairwise (· < ·) := by
    have range : sender.sendWindowAt.Pairwise (· < ·) := List.pairwise_lt_range'
    exact range.filter _
  refine window.eq_of_mem_iff sorted fun j => ?_
  simp only [chosen, List.mem_filter]
  constructor
  · rintro ⟨within, hit⟩
    -- The hash asked for belongs to one of the indices, and within the window to that one only.
    cases found : sender.contents[j]? with
    | none => simp [asked, found] at hit
    | some content =>
      simp only [asked, found, Option.any_some, decide_eq_true_eq, List.mem_map] at hit
      obtain ⟨i, member, same⟩ := hit
      obtain ⟨other, otherAt, named⟩ := content_of_hash outgoing (hashes i member)
      have equal := sendWindow_unique outgoing within (inside i member) found otherAt
        (same.symm.trans named.symm)
      exact equal ▸ member
  · intro member
    obtain ⟨content, located, named⟩ := content_of_hash outgoing (hashes j member)
    refine ⟨inside j member, ?_⟩
    simp only [asked, located, Option.any_some, decide_eq_true_eq, named]
    exact List.mem_map_of_mem member

/-- A search that finds nothing met no part with the name. -/
theorem findAfter_none {parts : List ResourcePart} {named : Bytes} {window : List Nat}
    (lost : findAfter parts named window = none) {i : Nat} {part : ResourcePart}
    (member : i ∈ window) (located : parts[i]? = some part) : part.mapHash.toBytes ≠ named := by
  -- A part with the name would have ended the walk.
  induction window with
  | nil => cases member
  | cons first rest ih =>
    unfold findAfter at lost
    rcases List.mem_cons.mp member with rfl | later
    · rw [located] at lost
      simp only at lost
      split at lost
      · cases lost
      · assumption
    · split at lost
      · split at lost
        · cases lost
        · exact ih lost later
      · exact ih lost later

/-- The end of a hashmap named inside the window is found where it is. -/
theorem partIndex_eq (outgoing : sender.Outgoing) {k : Nat} {mapHash : MapHash}
    (inside : k ∈ sender.sendWindowAt) (hash : sender.hashmap[k]? = some mapHash) :
    sender.partIndex mapHash.toBytes = k + 1 := by
  obtain ⟨content, located, named⟩ := content_of_hash outgoing hash
  have partAt := located
  rw [contents, List.getElem?_map, Option.map_eq_some_iff] at partAt
  obtain ⟨part, partAt, rfl⟩ := partAt
  unfold partIndex
  cases found : findAfter sender.parts mapHash.toBytes sender.sendWindowAt with
  -- The search would have met the part itself.
  | none =>
    exact absurd (congrArg FourBytes.toBytes named) (findAfter_none found inside partAt)
  -- The part that is found has the same hash, so it is the same part.
  | some next =>
    obtain ⟨j, other, rfl, member, otherAt, bytes⟩ := findAfter_some found
    have equal : other.mapHash = mapHash := FourBytes.toBytes_injective bytes
    have content : sender.contents[j]? = some other.content := by
      simp [contents, List.getElem?_map, otherAt]
    have same := sendWindow_unique outgoing member inside content located
      (equal.trans named.symm)
    rw [same]
    rfl

/-- A fresh, well-formed request to a live sender is answered as its window allows. -/
theorem handleRequest_spec {profile : Profile} {final : Resource} {requestData : Bytes}
    {packetHash : Option Hash} {now : Instant} {result : Except RnsError ResourceRequestResult}
    {request : PartRequest} (outgoing : sender.Outgoing)
    (start : sender.receiverMinConsecutiveHeight ≤ sender.info.totalParts)
    (live : sender.status ≠ .failed) (fresh : sender.seenRequest packetHash = false)
    (parsed : parseRequest requestData = .ok (.ok request))
    (finished : handleRequest profile sender requestData packetHash now = .ok (final, result)) :
    let parts := (sender.chosen request.mapHashes).map sender.dataAt
    (request.lastMapHash = none ∧
      final.receiverMinConsecutiveHeight = sender.receiverMinConsecutiveHeight ∧
      final.status ≠ .failed ∧
      ∃ allSent, result = .ok { parts := parts, hmuPacket := none, allSent := allSent }) ∨
    ∃ named, request.lastMapHash = some named ∧
      final.receiverMinConsecutiveHeight = sender.partIndex named - (1 + WINDOW_MAX) ∧
      (sender.partIndex named % hashmapMaxLen sender.info.sdu = 0 → final.status ≠ .failed ∧
        ∃ allSent, result = .ok {
          parts := parts
          hmuPacket := some (sender.updateFor (segmentOf sender.info.sdu (sender.partIndex named)))
          allSent := allSent }) := by
  obtain ⟨failed, -⟩ | ⟨-, seen, -⟩ | ⟨-, -, fault, rejected, -⟩ |
    ⟨-, -, other, accepted, answered⟩ := handleRequest_cases finished
  · exact absurd failed live
  · rw [fresh] at seen
    cases seen
  · rw [parsed] at rejected
    cases rejected
  · obtain rfl := Except.ok.inj (Except.ok.inj (parsed.symm.trans accepted))
    obtain ⟨hashes, remembered⟩ := rememberRequest_frame sender packetHash
    rw [remembered] at answered
    -- The status at the end is that of a transfer or of waiting for the proof.
    have moving : ∀ status : ResourceStatus,
        status = (beginRequest { sender with reqHashlist := hashes } now).status ∨
          status = .awaitingProof → status ≠ .failed := by
      rintro status (rfl | rfl)
      · simp [beginRequest]
      · simp
    obtain ⟨silent, height, status, allSent, answer⟩ |
      ⟨named, spoken, height, ⟨-, misaligned, -, -⟩ | ⟨-, status, allSent, answer⟩⟩ :=
      answerRequest_spec (by exact outgoing.mdu) (by exact outgoing.small)
        (by exact outgoing.count) (by exact start) answered
    · exact .inl ⟨silent, height, moving _ status, allSent, answer⟩
    · exact .inr ⟨named, spoken, height, fun aligned => absurd aligned misaligned⟩
    · exact .inr ⟨named, spoken, height, fun _ => ⟨moving _ status, allSent, answer⟩⟩

end SenderSearch

/-- How far a receiver has come, as its requests show it. -/
def Behind (r later : Resource) : Prop :=
  r.hashmapHeight ≤ later.hashmapHeight ∧
    filledPrefix r.receivedParts ≤ filledPrefix later.receivedParts

/-- A receiver is where it is. -/
theorem Behind.refl (r : Resource) : Behind r r := ⟨Nat.le_refl _, Nat.le_refl _⟩

/-- Having come further twice is having come further. -/
theorem Behind.trans {r middle later : Resource} (first : Behind r middle)
    (second : Behind middle later) : Behind r later :=
  ⟨Nat.le_trans first.1 second.1, Nat.le_trans first.2 second.2⟩

/-- A request as an honest receiver built it, at a time the present receiver has passed. -/
structure Genuine (origin receiver : Resource) (request : BuiltRequest) : Prop where
  ready : Ready origin request.builder
  parsed : parseRequest request.bytes = .ok (.ok request.builder.asking)
  past : Behind request.builder receiver

/-- What holds of a session fed in segments, with every update so far at or below a level. -/
structure Honest (origin : Resource) (level : Nat) (session : Session) : Prop where
  adv : session.adv = .fromResource origin
  info : session.sender.info = origin.info
  contents : session.sender.contents = origin.contents
  hashmap : session.sender.hashmap = origin.hashmap
  start : session.sender.receiverMinConsecutiveHeight ≤ origin.info.totalParts
  parts : ∀ sent ∈ session.parts, ∃ content ∈ origin.contents, content.1 = sent
  updates : ∀ update ∈ session.updates, ∃ segment,
    segment * hashmapMaxLen origin.info.sdu ≤ session.receiver.hashmapHeight ∧
    segment * hashmapMaxLen origin.info.sdu ≤ level ∧ update = origin.updateFor segment
  salt : session.receiver.info.randomHash = origin.info.randomHash
  ready : Ready origin session.receiver
  room : session.receiver.hashmapHeight ≤ level + hashmapMaxLen origin.info.sdu
  requests : ∀ request ∈ session.requests, Genuine origin session.receiver request

/-- A session whose receiver moved on and may have built requests just now. -/
def Advanced (session final : Session) : Prop :=
  final.sender = session.sender ∧ final.answers = session.answers ∧
    Behind session.receiver final.receiver ∧
    ∃ added, final.requests = session.requests ++ added ∧
      ∀ request ∈ added, request.builder = final.receiver

namespace Honest

variable {origin : Resource} {level : Nat} {session : Session}

/-- The sender of an honest session is the origin but for its progress. -/
theorem outgoing (honest : Honest origin level session) (segmented : Segmented origin) :
    session.sender.Outgoing :=
  segmented.outgoing.congr honest.info honest.contents honest.hashmap

/-- A receiver that moved on, with the requests it built on the way. -/
theorem advance (honest : Honest origin level session) {receiver : Resource}
    (added : List BuiltRequest) (ready : Ready origin receiver)
    (salt : receiver.info.randomHash = origin.info.randomHash)
    (room : receiver.hashmapHeight ≤ level + hashmapMaxLen origin.info.sdu)
    (ahead : Behind session.receiver receiver)
    (asked : ∀ request ∈ added, request.builder = receiver ∧
      parseRequest request.bytes = .ok (.ok receiver.asking)) :
    Honest origin level { session with
        receiver := receiver, requests := session.requests ++ added } ∧
      Advanced session { session with
        receiver := receiver, requests := session.requests ++ added } := by
  -- Requests of before stay behind, and new ones are of the receiver as it is now.
  refine ⟨?_, rfl, rfl, ahead, added, rfl, fun request member => (asked request member).1⟩
  exact {
    honest with
    updates := by
      intro update member
      obtain ⟨segment, known, below, same⟩ := honest.updates update member
      exact ⟨segment, Nat.le_trans known ahead.1, below, same⟩
    salt := salt
    ready := ready
    room := room
    requests := by
      intro request member
      rcases List.mem_append.mp member with before | new
      · have genuine := honest.requests request before
        exact { genuine with past := genuine.past.trans ahead }
      · obtain ⟨same, parsed⟩ := asked request new
        exact {
          ready := same ▸ ready
          parsed := same ▸ parsed
          past := same ▸ Behind.refl receiver } }

/-- The same for the session a call of the receiver leads to. -/
theorem built (honest : Honest origin level session) {receiver : Resource}
    {result : Except RnsError Bytes} (ready : Ready origin receiver)
    (salt : receiver.info.randomHash = origin.info.randomHash)
    (room : receiver.hashmapHeight ≤ level + hashmapMaxLen origin.info.sdu)
    (ahead : Behind session.receiver receiver)
    (parsed : ∀ bytes, result = .ok bytes → parseRequest bytes = .ok (.ok receiver.asking)) :
    Honest origin level (session.built receiver result) ∧
      Advanced session (session.built receiver result) := by
  obtain ⟨added, built, asked⟩ := session.built_frame receiver result
  rw [built]
  exact honest.advance added ready salt room ahead
    fun request member => ⟨(asked request member).2, parsed _ (asked request member).1⟩

/-- A part from the network leaves the receiver ready and its hashes as they were. -/
theorem placed (honest : Honest origin level session) (segmented : Segmented origin)
    {profile : Profile} {partData : Bytes} {now : Instant} {receiver : Resource} {found : Bool}
    (sent : partData ∈ session.parts)
    (called : session.receiver.receivePart profile partData now = .ok (receiver, found)) :
    Ready origin receiver ∧ receiver.hashmapHeight = session.receiver.hashmapHeight ∧
      receiver.info = session.receiver.info ∧ session.receiver.Keeps receiver := by
  have ready := honest.ready
  have told := ready.toTold
  have performed : perform profile session.receiver (.receivePart partData now) = .ok receiver := by
    simp [perform, called, Functor.map, Except.map]
  obtain ⟨books, kept⟩ := perform_books told.books performed
  obtain ⟨timing, flow, bounded, ⟨-, -, rfl⟩ | ⟨-, -, rfl⟩ |
    ⟨-, -, slot, grown, bytes, inside, hash, empty, within, rfl⟩⟩ :=
    receivePart_cases told.books called
  · exact ⟨{ told.touched bounded with begun := ready.begun }, rfl, rfl, kept⟩
  · exact ⟨{ told.touched bounded with begun := ready.begun }, rfl, rfl, kept⟩
  · -- The slot filled has a hash that is not zero, so it lies below the height.
    have below : slot < session.receiver.hashmapHeight := by
      obtain ⟨content, member, rfl⟩ := honest.parts partData sent
      by_contra above
      rw [told.total] at inside
      have entry := told.entry slot inside
      rw [if_neg above, hash, honest.salt, ← segmented.outgoing.named content member] at entry
      apply segmented.nonzero
      rw [← Option.some.inj entry, segmented.outgoing.hashes]
      exact List.mem_map_of_mem member
    refine ⟨{ told with books := books, filled := ?_, begun := ready.begun }, rfl, rfl, kept⟩
    intro i data held
    simp only [withPart, List.getElem?_set] at held
    split at held
    · rename_i same
      exact same ▸ below
    · exact told.filled i data held

/-- Every event but a request keeps a session honest at its level. -/
theorem receiver_event (honest : Honest origin level session) (segmented : Segmented origin)
    {profile : Profile} {action : Action} {final : Session}
    (wire : ∀ now, action ≠ .start true now)
    (quiet : ∀ i packetHash now, action ≠ .request i packetHash now)
    (event : Event profile session action final) :
    Honest origin level final ∧ Advanced session final := by
  have ready := honest.ready
  have positive := segmented.positive
  have small := segmented.outgoing.small
  cases event with
  | @start whole now receiver result called =>
    cases whole with
    | true => exact absurd rfl (wire now)
    | false =>
      -- The first segment was known already, so the height stays.
      obtain ⟨started, height, received, info, parsed⟩ := ready.toTold.started segmented
        (chunks_initialHashmap honest.adv honest.info) called
      have same : receiver.hashmapHeight = session.receiver.hashmapHeight := by
        have begun := ready.begun
        rw [height]
        simp only [raised, Nat.zero_add, Nat.one_mul]
        omega
      exact honest.built started (by rw [info]; exact honest.salt) (same ▸ honest.room)
        ⟨Nat.le_of_eq same.symm, by rw [received]⟩ parsed
  | build called =>
    obtain ⟨asks, height, received, info, parsed⟩ := ready.built segmented called
    exact honest.built asks (by rw [info]; exact honest.salt) (height ▸ honest.room)
      ⟨Nat.le_of_eq height.symm, by rw [received]⟩ parsed
  | timeout called =>
    obtain ⟨asks, height, received, info, parsed⟩ := ready.timedOut segmented called
    exact honest.built asks (by rw [info]; exact honest.salt) (height ▸ honest.room)
      ⟨Nat.le_of_eq height.symm, by rw [received]⟩ parsed
  | request found called => exact absurd rfl (quiet _ _ _)
  | @part i now partData receiver hit sent called =>
    obtain ⟨asks, height, info, kept⟩ := honest.placed segmented sent called
    have moved := honest.advance [] asks (by rw [info]; exact honest.salt)
      (height ▸ honest.room) ⟨Nat.le_of_eq height.symm, kept.prefix_le⟩ (by simp)
    simpa using moved
  | @update i update receiver sent called =>
    -- The update is of a segment that was reached, and raises the height by one segment at most.
    obtain ⟨segment, known, below, rfl⟩ := honest.updates update sent
    have limit := ready.below
    have bound : segment ≤ segment * hashmapMaxLen origin.info.sdu :=
      Nat.le_mul_of_pos_right _ positive
    rw [applyUpdate_updateFor (by omega)] at called
    obtain ⟨⟨applied, answer⟩, applying, rfl⟩ := map_eq_ok.mp called
    obtain ⟨after, height, received⟩ := ready.toTold.apply segmented known
      (by rw [FourBytes.chunks_flatMap]) applying
    have info : applied.info = session.receiver.info := by
      obtain ⟨hashmap, top, waiting, rfl, -⟩ := applyHashmap_frame applying
      rfl
    have step : (segment + 1) * hashmapMaxLen origin.info.sdu =
        segment * hashmapMaxLen origin.info.sdu + hashmapMaxLen origin.info.sdu := Nat.succ_mul _ _
    have higher : session.receiver.hashmapHeight ≤ applied.hashmapHeight := by
      rw [height]
      exact Nat.le_max_left _ _
    have moved := honest.advance []
      { after with begun := Nat.le_trans ready.begun higher } (by rw [info]; exact honest.salt)
      (by have room := honest.room; rw [height]; unfold raised; omega)
      ⟨higher, by rw [received]⟩ (by simp)
    simpa using moved
  | nothing => exact ⟨honest, rfl, rfl, Behind.refl _, [], by simp, by simp⟩

/-- A genuine request whose hashmap end lies in the sender's window is answered in full. -/
theorem answer (honest : Honest origin level session) (segmented : Segmented origin)
    {profile : Profile} {request : BuiltRequest} {packetHash : Option Hash} {now : Instant}
    {sender : Resource} {result : Except RnsError ResourceRequestResult}
    (genuine : Genuine origin session.receiver request) (live : session.sender.status ≠ .failed)
    (fresh : session.sender.seenRequest packetHash = false)
    (inside : request.builder.exhausted = true →
      request.builder.hashmapHeight - 1 ∈ session.sender.sendWindowAt)
    (called : session.sender.handleRequest profile request.bytes packetHash now =
      .ok (sender, result)) :
    sender.status ≠ .failed ∧
    sender.receiverMinConsecutiveHeight = (if request.builder.exhausted
      then request.builder.hashmapHeight - (1 + WINDOW_MAX)
      else session.sender.receiverMinConsecutiveHeight) ∧
    ∃ allSent, result = .ok {
      parts := (session.sender.chosen request.builder.asking.mapHashes).map session.sender.dataAt
      hmuPacket := if request.builder.exhausted
        then some (origin.updateFor
          (request.builder.hashmapHeight / hashmapMaxLen origin.info.sdu))
        else none
      allSent := allSent } := by
  have outgoing := honest.outgoing segmented
  have told := genuine.ready.toTold
  have positive := segmented.positive
  have spec := handleRequest_spec outgoing (by rw [honest.info]; exact honest.start) live fresh
    genuine.parsed called
  by_cases ends : request.builder.exhausted = true
  · -- The named hash is the last known one, found at its own index.
    obtain ⟨below, aligned, -⟩ := told.exhausted_spec segmented ends
    have begun := genuine.ready.begun
    have hash : session.sender.hashmap[request.builder.hashmapHeight - 1]? =
        some (request.builder.hashAt (request.builder.hashmapHeight - 1)) := by
      have entry := told.entry (request.builder.hashmapHeight - 1) (by omega)
      rw [if_pos (by omega)] at entry
      have located := List.getElem?_eq_getElem
        (show request.builder.hashmapHeight - 1 < request.builder.hashmap.length by
          rw [told.books.sized, told.total]; omega)
      rw [honest.hashmap, ← entry, located]
      simp [hashAt, located]
    have index := partIndex_eq outgoing (inside ends) hash
    have next : request.builder.hashmapHeight - 1 + 1 = request.builder.hashmapHeight := by omega
    rw [next] at index
    obtain ⟨silent, -⟩ | ⟨named, spoken, height, answered⟩ := spec
    · simp [asking, ends] at silent
    · simp only [asking, ends, if_true, Option.some.injEq] at spoken
      subst spoken
      rw [index] at height answered
      rw [honest.info] at answered
      obtain ⟨status, allSent, same⟩ := answered aligned
      have segment : segmentOf origin.info.sdu request.builder.hashmapHeight =
          request.builder.hashmapHeight / hashmapMaxLen origin.info.sdu := by
        simp [segmentOf, positive]
      rw [segment, updateFor_congr honest.info honest.hashmap] at same
      simp only [ends, if_true]
      exact ⟨status, height, allSent, same⟩
  · -- No end of a hashmap is named.
    obtain ⟨-, height, status, allSent, same⟩ | ⟨named, spoken, -⟩ := spec
    · simp only [ends]
      exact ⟨status, height, allSent, same⟩
    · simp [asking, ends] at spoken

/-- An answer whose update, if any, is a known segment keeps the session honest. -/
theorem answered (honest : Honest origin level session) (segmented : Segmented origin)
    {profile : Profile} {i : Nat} {request : BuiltRequest} {packetHash : Option Hash}
    {now : Instant} {sender : Resource} {result : Except RnsError ResourceRequestResult}
    {raisedLevel : Nat} (higher : level ≤ raisedLevel)
    (called : session.sender.handleRequest profile request.bytes packetHash now =
      .ok (sender, result))
    (carried : ∀ value update, result = .ok value → value.hmuPacket = some update → ∃ segment,
      segment * hashmapMaxLen origin.info.sdu ≤ session.receiver.hashmapHeight ∧
      segment * hashmapMaxLen origin.info.sdu ≤ raisedLevel ∧ update = origin.updateFor segment) :
    Honest origin raisedLevel { session with
      sender := sender
      answers := session.answers ++ [⟨i, request, packetHash, session.sender, result⟩] } := by
  -- The answer adds parts of the sender's own and at most one update, which the caller vouches for.
  obtain ⟨⟨info, contents, hashmap⟩, start, sent⟩ :=
    handleRequest_answer (honest.outgoing segmented) (by rw [honest.info]; exact honest.start) called
  rw [honest.info] at start
  exact {
    honest with
    info := info.trans honest.info
    contents := contents.trans honest.contents
    hashmap := hashmap.trans honest.hashmap
    start := start
    -- A part is one of those sent before or one of this answer.
    parts := by
      intro part member
      rcases Session.mem_parts_answer.mp member with before | ⟨value, same, new⟩
      · exact honest.parts part before
      · rw [← honest.contents]
        exact (sent value same).1 part new
    updates := by
      intro update member
      rcases Session.mem_updates_answer.mp member with before | ⟨value, same, new⟩
      · obtain ⟨segment, known, below, equal⟩ := honest.updates update before
        exact ⟨segment, known, Nat.le_trans below higher, equal⟩
      · exact carried value update same new
    room := Nat.le_trans honest.room (Nat.add_le_add_right higher _) }

/-- A level may be raised. -/
theorem mono (honest : Honest origin level session) {higher : Nat} (raise : level ≤ higher) :
    Honest origin higher session :=
  -- The level only bounds what is named from above.
  { honest with
    updates := by
      intro update member
      obtain ⟨segment, known, below, same⟩ := honest.updates update member
      exact ⟨segment, known, Nat.le_trans below raise, same⟩
    room := Nat.le_trans honest.room (Nat.add_le_add_right raise _) }

end Honest

section FirstEvent

variable {bzip2 : Bzip2} {draws : Draws} {data : Bytes} {linkMdu : Nat} {encrypt : Cipher}
  {requestId : Option Bytes} {isResponse autoCompress : Bool} {now : Instant}
  {origin receiver : Resource} {profile : Profile} {receiverRequestId : Option Bytes}
  {rtt : Duration} {later : Instant}

/-- The sender of a link with room for a hash is segmented. -/
theorem new_segmented (mdu : 138 ≤ linkMdu ∧ linkMdu < usizeRange)
    (built : Resource.new bzip2 draws data linkMdu encrypt requestId isResponse autoCompress now =
      .ok (some (.ok origin)))
    (nonzero : FourBytes.zero ∉ origin.hashmap) : Segmented origin := by
  -- The unit is wide enough for the advertisement and at least one hash.
  refine ⟨new_outgoing mdu.2 built, ?_, nonzero⟩
  obtain ⟨payload, compressed, encryptedBuf, randomHash, parts, -, -, -, -, -, -, rfl⟩ :=
    Resource.new_cases built
  simp only [Resource.outgoing, hashmapMaxLen, ADV_OVERHEAD, MAPHASH_LEN]
  omega

/-- A receiver built from the sender's advertisement has been told nothing yet. -/
theorem newFromAdvertisement_told (mdu : origin.info.sdu = linkMdu)
    (advertised : newFromAdvertisement profile (.fromResource origin) linkMdu rtt receiverRequestId
      later = .ok receiver) :
    Told origin receiver ∧ receiver.hashmapHeight = 0 ∧
      receiver.info.randomHash = origin.info.randomHash := by
  -- A new receiver knows no hash and holds no part.
  have books := newFromAdvertisement_bookkeeping advertised
  simp only [newFromAdvertisement, bind_eq_ok] at advertised
  obtain ⟨bytes, -, _, -, _, -, made⟩ := advertised
  obtain rfl := Except.ok.inj made
  refine ⟨?_, rfl, rfl⟩
  exact {
    sdu := mdu.symm
    total := rfl
    books := books
    below := Nat.zero_le _
    whole := .inr (Nat.zero_mod _)
    entry := by
      intro i small
      simp [ResourceAdvertisement.fromResource, small]
    filled := by
      intro i data held
      simp only [List.getElem?_replicate] at held
      split at held <;> simp at held }

/-- After its first event, a start from the first segment, a session is honest at level zero. -/
theorem start_honest {first : Instant} {session : Session}
    (mdu : 138 ≤ linkMdu ∧ linkMdu < usizeRange)
    (built : Resource.new bzip2 draws data linkMdu encrypt requestId isResponse autoCompress now =
      .ok (some (.ok origin)))
    (advertised : newFromAdvertisement profile (.fromResource origin) linkMdu rtt receiverRequestId
      later = .ok receiver)
    (nonzero : FourBytes.zero ∉ origin.hashmap)
    (started : Session.Steps profile (.begin origin receiver) (.start false first) session) :
    Honest origin 0 session ∧ session.sender = origin ∧ session.answers = [] ∧
      ∀ request ∈ session.requests, request.builder = session.receiver := by
  -- The first request applies the hashes of the advertisement, and nothing has been sent yet.
  have segmented := new_segmented mdu built nonzero
  have initial : origin.info.sdu = linkMdu ∧ origin.receiverMinConsecutiveHeight = 0 := by
    obtain ⟨payload, compressed, encryptedBuf, randomHash, parts, -, -, -, -, -, -, rfl⟩ :=
      Resource.new_cases built
    exact ⟨rfl, rfl⟩
  obtain ⟨told, zero, salt⟩ := newFromAdvertisement_told initial.1 advertised
  simp only [Session.Steps, Session.step, bind_eq_ok] at started
  obtain ⟨⟨asking, result⟩, called, done⟩ := started
  obtain rfl := Except.ok.inj done
  obtain ⟨ready, height, received, info, parsed⟩ := told.started segmented
    (chunks_initialHashmap rfl rfl) called
  obtain ⟨requests, same, asked⟩ := (Session.begin origin receiver).built_frame asking result
  rw [same]
  refine ⟨?_, rfl, rfl, ?_⟩
  · exact {
      adv := rfl
      info := rfl
      contents := rfl
      hashmap := rfl
      start := by
        show origin.receiverMinConsecutiveHeight ≤ _
        rw [initial.2]
        exact Nat.zero_le _
      parts := by simp [Session.begin, Session.parts]
      updates := by simp [Session.begin, Session.updates]
      salt := by rw [info]; exact salt
      ready := ready
      room := by
        rw [height]
        simp only [raised, zero]
        omega
      requests := by
        intro request member
        simp only [Session.begin, List.nil_append] at member
        obtain ⟨sent, builder⟩ := asked request member
        exact {
          ready := builder ▸ ready
          parsed := builder ▸ parsed _ sent
          past := builder ▸ Behind.refl _ } }
  · intro request member
    simp only [Session.begin, List.nil_append] at member
    exact (asked request member).2

end FirstEvent

end Resource

end Reticulum
