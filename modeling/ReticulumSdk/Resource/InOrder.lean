import ReticulumSdk.Resource.Ordering
import ReticulumSdk.Resource.Safety

/-! Requests that reach the sender in the order they were built are answered in full. -/

namespace Reticulum

open Resource Slots

namespace Resource

/-- A sender remembers the hashes of the request packets it was given, and no others. -/
theorem handleRequest_remembers {profile : Profile} {r final : Resource} {requestData : Bytes}
    {packetHash : Option Hash} {now : Instant} {result : Except RnsError ResourceRequestResult}
    (finished : handleRequest profile r requestData packetHash now = .ok (final, result)) {hash : Hash}
    (member : hash ∈ final.reqHashlist) : hash ∈ r.reqHashlist ∨ packetHash = some hash := by
  -- Remembering adds the hash of the packet, and may forget others.
  have noted : hash ∈ (r.rememberRequest packetHash).reqHashlist →
      hash ∈ r.reqHashlist ∨ packetHash = some hash := by
    cases packetHash with
    | none => exact .inl
    | some new =>
      intro held
      have grown := List.mem_of_mem_drop held
      simpa [eq_comm] using grown
  obtain ⟨-, rfl, -⟩ | ⟨-, -, rfl, -⟩ | ⟨-, -, fault, -, rfl, -⟩ | ⟨-, -, request, -, answered⟩ :=
    handleRequest_cases finished
  · exact .inl member
  · exact .inl member
  · exact noted member
  · obtain ⟨status, parts, sentParts, height, active, last, retries, rfl, -, -⟩ :=
      answerRequest_frame answered
    obtain ⟨rtt, began⟩ := beginRequest_frame (r.rememberRequest packetHash) now
    rw [began] at member
    exact noted member

/-- The answer a request of this receiver deserves. -/
def Serves (origin builder : Resource) (result : Except RnsError ResourceRequestResult) : Prop :=
  ∃ allSent, result = .ok {
    parts := builder.meant.map origin.dataAt
    hmuPacket := if builder.exhausted
      then some (origin.updateFor (builder.hashmapHeight / hashmapMaxLen origin.info.sdu)) else none
    allSent := allSent }

/--
A session whose requests came in order: the last hashmap end named is the level, the sender
searches from just below it, and neither the receiver nor a request still to come is behind it.
-/
structure InOrder (origin : Resource) (level : Nat) (session : Session) : Prop
    extends Honest origin level session where
  sound : session.sender.Sound
  live : session.sender.status ≠ .failed
  reach : session.sender.receiverMinConsecutiveHeight = level - (1 + WINDOW_MAX)
  passed : level ≤ session.receiver.hashmapHeight ∧
    level ≤ filledPrefix session.receiver.receivedParts + 74
  sorted : session.requests.Pairwise fun early late => Behind early.builder late.builder
  pending : ∀ i request, session.requests[i]? = some request →
    (∀ answer ∈ session.answers, answer.index < i) →
    level ≤ request.builder.hashmapHeight ∧
    level ≤ filledPrefix request.builder.receivedParts + 74 ∧
    request.builder.hashmapHeight ≤ level + hashmapMaxLen origin.info.sdu
  remembered : ∀ hash ∈ session.sender.reqHashlist,
    hash ∈ session.answers.filterMap Answer.packetHash

namespace InOrder

variable {origin : Resource} {level : Nat} {session : Session}

/-- A receiver that moves on stays in order with the requests it builds. -/
theorem advanced (ordered : InOrder origin level session) {final : Session}
    (honest : Honest origin level final) (moved : Advanced session final) :
    InOrder origin level final := by
  obtain ⟨sender, answers, ahead, added, requests, builders⟩ := moved
  -- The receiver only moves on, so a level it has passed stays behind it.
  have passed : level ≤ final.receiver.hashmapHeight ∧
      level ≤ filledPrefix final.receiver.receivedParts + 74 := by
    have before := ordered.passed
    have height := ahead.1
    have filled := ahead.2
    omega
  exact {
    honest with
    sound := by rw [sender]; exact ordered.sound
    live := by rw [sender]; exact ordered.live
    reach := by rw [sender]; exact ordered.reach
    passed := passed
    -- The requests added are the latest, and all built by the same receiver.
    sorted := by
      rw [requests, List.pairwise_append]
      refine ⟨ordered.sorted, ?_, ?_⟩
      · refine List.pairwise_of_forall_mem_list fun early here late there => ?_
        rw [builders early here, builders late there]
        exact Behind.refl _
      · intro early here late there
        rw [builders late there]
        exact (ordered.requests early here).past.trans ahead
    pending := by
      intro i request found unanswered
      rw [answers] at unanswered
      rw [requests, List.getElem?_append] at found
      split at found
      · exact ordered.pending i request found unanswered
      · rw [builders request (List.mem_of_getElem? found)]
        exact ⟨passed.1, passed.2, honest.room⟩
    remembered := by rw [sender, answers]; exact ordered.remembered }

/-- The parts and the hashmap end of the next request lie in the sender's window. -/
theorem inside (ordered : InOrder origin level session) (segmented : Segmented origin) {i : Nat}
    {request : BuiltRequest} (found : session.requests[i]? = some request)
    (next : ∀ answer ∈ session.answers, answer.index < i) :
    (∀ j ∈ request.builder.meant, j ∈ session.sender.sendWindowAt) ∧
    (request.builder.exhausted = true →
      request.builder.hashmapHeight - 1 ∈ session.sender.sendWindowAt) := by
  obtain ⟨reached, covered, near⟩ := ordered.pending i request found next
  have told := (ordered.requests request (List.mem_of_getElem? found)).ready.toTold
  have below := told.below
  have positive := segmented.positive
  -- The guard covers two windows and a segment, which is more than a request in order can ask for.
  have guard : collisionGuardSize session.sender.info.sdu =
      150 + hashmapMaxLen origin.info.sdu := by
    rw [ordered.info]
    rfl
  have reach : session.sender.receiverMinConsecutiveHeight = level - 76 := ordered.reach
  have total : session.sender.info.totalParts = origin.info.totalParts := by rw [ordered.info]
  constructor
  · intro j member
    obtain ⟨known, -⟩ := told.meant_known member
    obtain ⟨⟨low, -, -⟩, -, -⟩ := mem_meant member
    rw [mem_sendWindowAt]
    omega
  · intro ends
    obtain ⟨room, -, -⟩ := told.exhausted_spec segmented ends
    rw [mem_sendWindowAt]
    omega

/-- The next request, in a packet not seen before, gets the answer it deserves. -/
theorem serves (ordered : InOrder origin level session) (segmented : Segmented origin)
    {profile : Profile} {i : Nat} {request : BuiltRequest} {packetHash : Option Hash} {now : Instant}
    {sender : Resource} {result : Except RnsError ResourceRequestResult}
    (found : session.requests[i]? = some request)
    (next : ∀ answer ∈ session.answers, answer.index < i)
    (fresh : ∀ hash ∈ session.answers.filterMap Answer.packetHash, packetHash ≠ some hash)
    (called : session.sender.handleRequest profile request.bytes packetHash now =
      .ok (sender, result)) :
    Serves origin request.builder result ∧ sender.status ≠ .failed ∧
      sender.receiverMinConsecutiveHeight = (if request.builder.exhausted
        then request.builder.hashmapHeight - (1 + WINDOW_MAX)
        else session.sender.receiverMinConsecutiveHeight) := by
  have genuine := ordered.requests request (List.mem_of_getElem? found)
  have told := genuine.ready.toTold
  obtain ⟨parts, ends⟩ := ordered.inside segmented found next
  -- A hash that no answer had is not among those remembered.
  have unseen : session.sender.seenRequest packetHash = false := by
    cases packetHash with
    | none => rfl
    | some hash =>
      simp only [seenRequest, decide_eq_false_iff_not]
      exact fun held => fresh hash (ordered.remembered hash held) rfl
  obtain ⟨live, reach, allSent, same⟩ :=
    ordered.toHonest.answer segmented genuine ordered.live unseen ends called
  -- All parts asked for lie in the window of the sender, which has their hashes.
  have picked : session.sender.chosen request.builder.asking.mapHashes = request.builder.meant :=
    chosen_eq (ordered.outgoing segmented) request.builder.meant_sorted parts fun j member => by
      rw [ordered.hashmap]
      exact (told.meant_known member).2
  rw [picked, (reads_congr ordered.contents).1] at same
  exact ⟨⟨allSent, same⟩, live, reach⟩

/-- Answering the next request keeps the session in order, at the hashmap end it named. -/
theorem answered (ordered : InOrder origin level session) (segmented : Segmented origin)
    {profile : Profile} {i : Nat} {request : BuiltRequest} {packetHash : Option Hash} {now : Instant}
    {sender : Resource} {result : Except RnsError ResourceRequestResult}
    (found : session.requests[i]? = some request)
    (next : ∀ answer ∈ session.answers, answer.index < i)
    (fresh : ∀ hash ∈ session.answers.filterMap Answer.packetHash, packetHash ≠ some hash)
    (called : session.sender.handleRequest profile request.bytes packetHash now =
      .ok (sender, result)) :
    InOrder origin (if request.builder.exhausted then request.builder.hashmapHeight else level) {
      session with
        sender := sender
        answers := session.answers ++ [⟨i, request, packetHash, session.sender, result⟩] } := by
  -- The level moves only when the request told the last hash its receiver knew.
  obtain ⟨⟨allSent, same⟩, live, reach⟩ := ordered.serves segmented found next fresh called
  have genuine := ordered.requests request (List.mem_of_getElem? found)
  have told := genuine.ready.toTold
  obtain ⟨reached, covered, near⟩ := ordered.pending i request found next
  have higher : level ≤
      (if request.builder.exhausted then request.builder.hashmapHeight else level) := by
    split
    · exact reached
    · exact Nat.le_refl _
  -- An update in the answer begins at a segment the receiver had reached when it asked.
  have honest := ordered.toHonest.answered segmented (i := i) higher called (by
    rintro value update rfl carried
    obtain rfl := Except.ok.inj same
    cases ends : request.builder.exhausted with
    | false => simp [ends] at carried
    | true =>
      obtain ⟨-, aligned, -⟩ := told.exhausted_spec segmented ends
      have start := Nat.div_mul_cancel (Nat.dvd_of_mod_eq_zero aligned)
      simp only [ends, if_true, Option.some.injEq] at carried
      refine ⟨_, ?_, ?_, carried.symm⟩
      · rw [start]
        exact genuine.past.1
      · rw [start, if_pos rfl])
  obtain ⟨_, _, again, sound⟩ := handleRequest_ok ordered.sound profile request.bytes packetHash now
  obtain ⟨rfl, rfl⟩ := Prod.mk.inj (Except.ok.inj (called.symm.trans again))
  exact {
    honest with
    sound := sound
    live := live
    reach := by
      rw [reach]
      split
      · rfl
      · exact ordered.reach
    passed := by
      split
      · rename_i ends
        obtain ⟨-, -, filled⟩ := told.exhausted_spec segmented ends
        exact ⟨genuine.past.1, Nat.le_trans filled (Nat.add_le_add_right genuine.past.2 _)⟩
      · exact ordered.passed
    sorted := ordered.sorted
    pending := by
      intro j later foundLater unanswered
      have after : i < j := unanswered ⟨i, request, packetHash, session.sender, result⟩ (by simp)
      obtain ⟨low, filled, high⟩ := ordered.pending j later foundLater fun answer member =>
        unanswered answer (List.mem_append_left _ member)
      split
      · -- A later request was built by a receiver that had come at least as far.
        rename_i ends
        obtain ⟨inside, rfl⟩ := List.getElem?_eq_some_iff.mp found
        obtain ⟨insideLater, rfl⟩ := List.getElem?_eq_some_iff.mp foundLater
        have behind := List.pairwise_iff_getElem.mp ordered.sorted i j inside insideLater after
        obtain ⟨-, -, limit⟩ := told.exhausted_spec segmented ends
        exact ⟨behind.1, Nat.le_trans limit (Nat.add_le_add_right behind.2 _),
          Nat.le_trans high (Nat.add_le_add_right reached _)⟩
      · exact ⟨low, filled, high⟩
    remembered := by
      intro hash member
      rw [List.filterMap_append, List.mem_append]
      rcases handleRequest_remembers called member with before | new
      · exact .inl (ordered.remembered hash before)
      · simp [new] }

end InOrder

/-- The requests answered so far came in the order they were built, in packets of their own. -/
def Orderly (session : Session) : Prop :=
  (session.answers.map Answer.index).Pairwise (· < ·) ∧
    (session.answers.filterMap Answer.packetHash).Nodup

/-- An orderly session with one more answer was orderly before, and the answer is the next one. -/
theorem Orderly.of_append {session : Session} {sender : Resource} {answer : Answer}
    (orderly : Orderly { session with
      sender := sender, answers := session.answers ++ [answer] }) :
    Orderly session ∧ (∀ early ∈ session.answers, early.index < answer.index) ∧
      ∀ hash ∈ session.answers.filterMap Answer.packetHash, answer.packetHash ≠ some hash := by
  -- The last answer is after all others, and its hash is new.
  obtain ⟨sorted, distinct⟩ := orderly
  simp only [List.map_append, List.pairwise_append] at sorted
  simp only [List.filterMap_append, List.nodup_append] at distinct
  refine ⟨⟨sorted.1, distinct.1⟩, ?_, ?_⟩
  · intro early member
    exact sorted.2.2 _ (List.mem_map_of_mem member) _ (by simp)
  · intro hash member same
    exact distinct.2.2 hash member hash (by simp [same]) rfl

/-- One event keeps a session in order for as long as it is orderly. -/
theorem InOrder.step {origin : Resource} {session final : Session} {profile : Profile}
    {action : Action} (segmented : Segmented origin) (wire : ∀ now, action ≠ .start true now)
    (before : Orderly session → ∃ level, InOrder origin level session)
    (taken : Session.Steps profile session action final) (orderly : Orderly final) :
    ∃ level, InOrder origin level final := by
  by_cases asks : ∃ i packetHash now, action = .request i packetHash now
  · -- Only a request can go wrong on the sender's side.
    obtain ⟨i, packetHash, now, rfl⟩ := asks
    cases event_of_step taken with
    | request found called =>
      obtain ⟨earlier, next, fresh⟩ := orderly.of_append
      obtain ⟨level, ordered⟩ := before earlier
      exact ⟨_, ordered.answered segmented found next fresh called⟩
    | nothing => exact before orderly
  · -- Everything else leaves the answers as they are.
    have quiet : ∀ i packetHash now, action ≠ .request i packetHash now :=
      fun i packetHash now same => asks ⟨i, packetHash, now, same⟩
    have event := event_of_step taken
    have same := event.answers_quiet quiet
    obtain ⟨level, ordered⟩ := before (by unfold Orderly at orderly ⊢; rwa [same] at orderly)
    obtain ⟨honest, moved⟩ := ordered.toHonest.receiver_event segmented wire quiet event
    exact ⟨level, ordered.advanced honest moved⟩

section Served

variable {bzip2 : Bzip2} {draws : Draws} {data : Bytes} {linkMdu : Nat} {encrypt : Cipher}
  {requestId : Option Bytes} {isResponse autoCompress : Bool} {now : Instant}
  {origin receiver : Resource} {profile : Profile} {receiverRequestId : Option Bytes}
  {rtt : Duration} {later first : Instant} {actions : List Action} {session : Session}

/-- Every orderly run that starts from the first segment stays in order. -/
theorem run_inOrder (mdu : 138 ≤ linkMdu ∧ linkMdu < usizeRange)
    (built : Resource.new bzip2 draws data linkMdu encrypt requestId isResponse autoCompress now =
      .ok (some (.ok origin)))
    (advertised : newFromAdvertisement profile (.fromResource origin) linkMdu rtt receiverRequestId
      later = .ok receiver)
    (nonzero : FourBytes.zero ∉ origin.hashmap) (wire : ∀ now, Action.start true now ∉ actions)
    (run : Run (Session.Steps profile) (.begin origin receiver) (.start false first :: actions)
      session)
    (orderly : Orderly session) : ∃ level, InOrder origin level session := by
  -- The invariant holds after the opening request, and every later event keeps it.
  have segmented := new_segmented mdu built nonzero
  cases run with
  | next started rest =>
    obtain ⟨honest, sender, answers, builders⟩ :=
      start_honest mdu built advertised nonzero started
    have initial : origin.status = .none ∧ origin.receiverMinConsecutiveHeight = 0 ∧
        origin.reqHashlist = [] := by
      obtain ⟨payload, compressed, encryptedBuf, randomHash, parts, -, -, -, -, -, -, rfl⟩ :=
        Resource.new_cases built
      exact ⟨rfl, rfl, rfl⟩
    obtain ⟨queued, bottom, unseen⟩ := initial
    -- After the first request nothing was asked of the sender.
    have ordered : InOrder origin 0 _ := {
      honest with
      sound := sender ▸ (Created.outgoing mdu.2 built).sound
      live := by rw [sender, queued]; decide
      reach := by rw [sender, bottom, Nat.zero_sub]
      passed := ⟨Nat.zero_le _, Nat.zero_le _⟩
      sorted := by
        refine List.pairwise_of_forall_mem_list fun early here late there => ?_
        rw [builders early here, builders late there]
        exact Behind.refl _
      pending := by
        intro i request found unanswered
        rw [builders request (List.mem_of_getElem? found)]
        exact ⟨Nat.zero_le _, Nat.zero_le _, honest.room⟩
      remembered := by rw [sender, unseen]; simp }
    have each : ∀ action ∈ actions, ∀ now, action ≠ .start true now :=
      fun action member now same => wire now (same ▸ member)
    have kept : ∀ state action final, (∀ now, action ≠ Action.start true now) →
        (Orderly state → ∃ level, InOrder origin level state) →
        Session.Steps profile state action final →
        (Orderly final → ∃ level, InOrder origin level final) :=
      fun state action final allowed before taken => InOrder.step segmented allowed before taken
    exact rest.invariant_on kept each (fun _ => ⟨0, ordered⟩) orderly

/--
As long as requests come in the order they were built, whatever is lost between the ends, the next
one gets one part for each hash it names, the part of the index the receiver meant, and a hashmap
update exactly when it asks for one, for the segment that starts at the height it was built at.
-/
theorem requests_in_order_served (mdu : 138 ≤ linkMdu ∧ linkMdu < usizeRange)
    (built : Resource.new bzip2 draws data linkMdu encrypt requestId isResponse autoCompress now =
      .ok (some (.ok origin)))
    (advertised : newFromAdvertisement profile (.fromResource origin) linkMdu rtt receiverRequestId
      later = .ok receiver)
    (nonzero : FourBytes.zero ∉ origin.hashmap) (wire : ∀ now, Action.start true now ∉ actions)
    (run : Run (Session.Steps profile) (.begin origin receiver) (.start false first :: actions)
      session)
    (orderly : Orderly session) {i : Nat} {request : BuiltRequest}
    (found : session.requests[i]? = some request)
    (next : ∀ answer ∈ session.answers, answer.index < i) (packetHash : Option Hash)
    (fresh : ∀ hash ∈ session.answers.filterMap Answer.packetHash, packetHash ≠ some hash)
    (arrival : Instant) :
    ∃ sender result named,
      session.sender.handleRequest profile request.bytes packetHash arrival =
        .ok (sender, .ok result) ∧
      parseRequest request.bytes =
        .ok (.ok ⟨named, request.builder.meant.map request.builder.hashAt⟩) ∧
      request.builder.meant.Pairwise (· < ·) ∧
      (∀ j ∈ request.builder.meant, request.builder.receivedParts[j]? = some none ∧
        ∃ part, origin.parts[j]? = some part ∧ part.mapHash = request.builder.hashAt j ∧
          part.data = origin.dataAt j) ∧
      result.parts = request.builder.meant.map origin.dataAt ∧
      (result.hmuPacket.isSome = request.builder.exhausted) ∧
      ∀ update, result.hmuPacket = some update → ∃ segment,
        segment * hashmapMaxLen origin.info.sdu = request.builder.hashmapHeight ∧
        update = origin.updateFor segment := by
  have segmented := new_segmented mdu built nonzero
  obtain ⟨level, ordered⟩ := run_inOrder mdu built advertised nonzero wire run orderly
  have genuine := ordered.requests request (List.mem_of_getElem? found)
  have told := genuine.ready.toTold
  obtain ⟨sender, result, called, -⟩ :=
    handleRequest_ok ordered.sound profile request.bytes packetHash arrival
  -- The answer is the one that a request served in order gets.
  obtain ⟨⟨allSent, rfl⟩, -⟩ := ordered.serves segmented found next fresh called
  refine ⟨sender, _, _, called, genuine.parsed, request.builder.meant_sorted, ?_, rfl, ?_, ?_⟩
  · intro j member
    obtain ⟨-, absent, -⟩ := mem_meant member
    obtain ⟨content, located, named⟩ :=
      content_of_hash segmented.outgoing (told.meant_known member).2
    have partAt := located
    rw [contents, List.getElem?_map, Option.map_eq_some_iff] at partAt
    obtain ⟨part, partAt, rfl⟩ := partAt
    exact ⟨absent, part, partAt, named, by simp [dataAt, located, ResourcePart.content]⟩
  · cases ends : request.builder.exhausted <;> simp
  · intro update carried
    cases ends : request.builder.exhausted with
    | false => simp [ends] at carried
    | true =>
      obtain ⟨-, aligned, -⟩ := told.exhausted_spec segmented ends
      simp only [ends, if_true, Option.some.injEq] at carried
      exact ⟨_, Nat.div_mul_cancel (Nat.dvd_of_mod_eq_zero aligned), carried.symm⟩

end Served

/-- A first request answered, its update applied, and a second request built. -/
private def secondRequest : List Action := [.request 0 none 1, .part 0 2, .update 0, .build]

/-- The second request of a transfer in two segments gets the second part. -/
theorem requests_in_order_served_second :
    ∃ origin receiver session request sender result,
      Resource.new storeBzip2 ⟨.zero, .zero, []⟩ (List.replicate 140 7) 138 copyCipher none false
        false 0 = .ok (some (.ok origin)) ∧
      newFromAdvertisement .debug (.fromResource origin) 138 0 none 0 = .ok receiver ∧
      Run (Session.Steps .debug) (.begin origin receiver) (.start false 0 :: secondRequest)
        session ∧
      session.requests[1]? = some request ∧
      session.sender.handleRequest .debug request.bytes none 4 = .ok (sender, .ok result) ∧
      request.builder.meant = [1] ∧ result.parts = [origin.dataAt 1] := by
  -- The run up to the second request is evaluated, and the request is then answered by the theorem.
  have evaluated : ((plainResource (List.replicate 140 7) 138).any fun origin =>
      decide (FourBytes.zero ∉ origin.hashmap) &&
      passes (newFromAdvertisement .debug (.fromResource origin) 138 0 none 0) fun receiver =>
        passes (Session.stepAll .debug (.begin origin receiver) (.start false 0 :: secondRequest))
          fun session =>
            decide (session.answers.map Answer.index = [0] ∧
              session.answers.filterMap Answer.packetHash = []) &&
            (session.requests[1]?).any fun request => decide (request.builder.meant = [1])) = true := by
    decide +kernel
  obtain ⟨origin, made, passed⟩ := (Option.any_eq_true _ _).mp evaluated
  simp only [Bool.and_eq_true, decide_eq_true_eq] at passed
  obtain ⟨nonzero, passed⟩ := passed
  obtain ⟨receiver, advertised, passed⟩ := exists_of_passes passed
  obtain ⟨session, finished, passed⟩ := exists_of_passes passed
  simp only [Bool.and_eq_true, decide_eq_true_eq] at passed
  obtain ⟨⟨indices, hashes⟩, passed⟩ := passed
  obtain ⟨request, found, meant⟩ := (Option.any_eq_true _ _).mp passed
  rw [decide_eq_true_eq] at meant
  have built := new_of_plainResource made
  have run := Session.run_of_stepAll finished
  have next : ∀ answer ∈ session.answers, answer.index < 1 := by
    intro answer member
    have listed := List.mem_map_of_mem (f := Answer.index) member
    rw [indices, List.mem_singleton] at listed
    omega
  obtain ⟨sender, result, named, called, -, -, -, parts, -⟩ :=
    requests_in_order_served (by decide) built advertised nonzero (by simp [secondRequest]) run
      ⟨by rw [indices]; simp, by rw [hashes]; simp⟩ found next none (by simp) 4
  rw [meant] at parts
  exact ⟨origin, receiver, session, request, sender, result, built, advertised, run, found, called,
    meant, parts⟩

/-- Two requests built at one height, the first answered and its update applied. -/
private def repeatedRequest : List Action :=
  [.timeout 1000000000000, .request 0 none 1, .update 0]

/--
A request repeated on a timeout and delivered in order after the update for the first one was
applied is answered with the segment at the height it was built at, not at the present height.
-/
theorem repeated_request_behind_height :
    ∃ origin receiver session request sender result,
      Resource.new storeBzip2 ⟨.zero, .zero, []⟩ (List.replicate 140 7) 138 copyCipher none false
        false 0 = .ok (some (.ok origin)) ∧
      newFromAdvertisement .debug (.fromResource origin) 138 0 none 0 = .ok receiver ∧
      FourBytes.zero ∉ origin.hashmap ∧
      Run (Session.Steps .debug) (.begin origin receiver) (.start false 0 :: repeatedRequest)
        session ∧
      Orderly session ∧ session.requests[1]? = some request ∧
      (∀ answer ∈ session.answers, answer.index < 1) ∧
      session.sender.handleRequest .debug request.bytes none 2 = .ok (sender, .ok result) ∧
      result.hmuPacket = some (origin.updateFor 1) ∧
      1 * hashmapMaxLen origin.info.sdu ≠ session.receiver.hashmapHeight := by
  -- The repeated request was built before the update came, and asks for a segment already known.
  have evaluated : ((plainResource (List.replicate 140 7) 138).any fun origin =>
      decide (FourBytes.zero ∉ origin.hashmap) &&
      passes (newFromAdvertisement .debug (.fromResource origin) 138 0 none 0) fun receiver =>
        passes (Session.stepAll .debug (.begin origin receiver) (.start false 0 :: repeatedRequest))
          fun session =>
            decide (session.answers.map Answer.index = [0] ∧
              session.answers.filterMap Answer.packetHash = [] ∧
              1 * hashmapMaxLen origin.info.sdu ≠ session.receiver.hashmapHeight) &&
            (session.requests[1]?).any fun request =>
              decide (request.builder.hashmapHeight / hashmapMaxLen origin.info.sdu = 1 ∧
                request.builder.exhausted = true)) = true := by
    decide +kernel
  obtain ⟨origin, made, passed⟩ := (Option.any_eq_true _ _).mp evaluated
  simp only [Bool.and_eq_true, decide_eq_true_eq] at passed
  obtain ⟨nonzero, passed⟩ := passed
  obtain ⟨receiver, advertised, passed⟩ := exists_of_passes passed
  obtain ⟨session, finished, passed⟩ := exists_of_passes passed
  simp only [Bool.and_eq_true, decide_eq_true_eq] at passed
  obtain ⟨⟨indices, hashes, apart⟩, passed⟩ := passed
  obtain ⟨request, found, passed⟩ := (Option.any_eq_true _ _).mp passed
  simp only [decide_eq_true_eq] at passed
  obtain ⟨segment, ends⟩ := passed
  have built := new_of_plainResource made
  have run := Session.run_of_stepAll finished
  have orderly : Orderly session := ⟨by rw [indices]; simp, by rw [hashes]; simp⟩
  have next : ∀ answer ∈ session.answers, answer.index < 1 := by
    intro answer member
    have listed := List.mem_map_of_mem (f := Answer.index) member
    rw [indices, List.mem_singleton] at listed
    omega
  obtain ⟨level, ordered⟩ := run_inOrder (by decide) built advertised nonzero
    (by simp [repeatedRequest]) run orderly
  obtain ⟨sender, result, called, -⟩ := handleRequest_ok ordered.sound .debug request.bytes none 2
  obtain ⟨⟨allSent, rfl⟩, -⟩ := ordered.serves (new_segmented (by decide) built nonzero) found next
    (by simp [hashes]) called
  refine ⟨origin, receiver, session, request, sender, _, built, advertised, nonzero, run, orderly,
    found, next, called, ?_, apart⟩
  simp [ends, segment]

end Resource

end Reticulum
