import ReticulumSdk.Resource.InOrder

/-! When a request that comes late, twice or out of order is harmless. -/

namespace Reticulum

open Resource Slots

/--
A request met the sender's search window: if it was new to the sender and asks for more of the
hashmap, the end of the hashmap as its builder knew it lies in the window the sender searches.
-/
def Answer.Inside (answer : Answer) : Prop :=
  answer.before.seenRequest answer.packetHash = false →
  answer.request.bytes[0]? = some HASHMAP_IS_EXHAUSTED →
  answer.before.receiverMinConsecutiveHeight ≤ answer.request.builder.hashmapHeight - 1 ∧
    answer.request.builder.hashmapHeight - 1 <
      answer.before.receiverMinConsecutiveHeight + collisionGuardSize answer.before.info.sdu

instance (answer : Answer) : Decidable answer.Inside :=
  inferInstanceAs (Decidable (_ → _ → _ ∧ _))

namespace Resource

/-- The first byte of a genuine request says whether it asks for more of the hashmap. -/
theorem Genuine.exhausted_byte {origin receiver : Resource} {request : BuiltRequest}
    (genuine : Genuine origin receiver request) (ends : request.builder.exhausted = true) :
    request.bytes[0]? = some HASHMAP_IS_EXHAUSTED := by
  -- Read with any other first byte, the request would name no hash.
  have parsed := genuine.parsed
  rw [parseRequest_eq] at parsed
  by_contra other
  simp only [other, if_false] at parsed
  split at parsed
  · cases parsed
  · split at parsed
    · cases parsed
    · have named := congrArg PartRequest.lastMapHash (Except.ok.inj (Except.ok.inj parsed))
      simp [asking, ends] at named

/-- A session in which every request so far met the sender's window. -/
structure Unharmed (origin : Resource) (session : Session) : Prop
    extends Honest origin origin.info.totalParts session where
  live : session.sender.status ≠ .failed
  accepted : ∀ answer ∈ session.answers, answer.result ≠ .error .outOfMemory

/-- A request that meets the sender's window does no harm. -/
theorem Unharmed.answered {origin : Resource} {session : Session} (unharmed : Unharmed origin session)
    (segmented : Segmented origin) {profile : Profile} {i : Nat} {request : BuiltRequest}
    {packetHash : Option Hash} {now : Instant} {sender : Resource}
    {result : Except RnsError ResourceRequestResult}
    (found : session.requests[i]? = some request)
    (called : session.sender.handleRequest profile request.bytes packetHash now =
      .ok (sender, result))
    (inside : Answer.Inside ⟨i, request, packetHash, session.sender, result⟩) :
    Unharmed origin { session with
      sender := sender
      answers := session.answers ++ [⟨i, request, packetHash, session.sender, result⟩] } := by
  have genuine := unharmed.requests request (List.mem_of_getElem? found)
  have told := genuine.ready.toTold
  have total : session.sender.info.totalParts = origin.info.totalParts := by rw [unharmed.info]
  -- A request seen before is answered with nothing; a new one with what its window holds.
  have answer : sender.status ≠ .failed ∧ ∃ value, result = .ok value ∧
      ∀ update, value.hmuPacket = some update → ∃ segment,
        segment * hashmapMaxLen origin.info.sdu ≤ session.receiver.hashmapHeight ∧
        segment * hashmapMaxLen origin.info.sdu ≤ origin.info.totalParts ∧
        update = origin.updateFor segment := by
    cases seen : session.sender.seenRequest packetHash with
    | true =>
      obtain ⟨failed, -⟩ | ⟨live, -, rfl, rfl⟩ | ⟨-, fresh, -⟩ | ⟨-, fresh, -⟩ :=
        handleRequest_cases called
      · exact absurd failed unharmed.live
      · exact ⟨live, _, rfl, by simp⟩
      · simp [seen] at fresh
      · simp [seen] at fresh
    | false =>
      have window : request.builder.exhausted = true →
          request.builder.hashmapHeight - 1 ∈ session.sender.sendWindowAt := by
        intro ends
        obtain ⟨low, high⟩ := inside seen (genuine.exhausted_byte ends)
        obtain ⟨room, -, -⟩ := told.exhausted_spec segmented ends
        rw [mem_sendWindowAt]
        exact ⟨low, high, by omega⟩
      obtain ⟨live, -, allSent, rfl⟩ :=
        unharmed.toHonest.answer segmented genuine unharmed.live seen window called
      refine ⟨live, _, rfl, ?_⟩
      intro update carried
      cases ends : request.builder.exhausted with
      | false => simp [ends] at carried
      | true =>
        obtain ⟨room, aligned, -⟩ := told.exhausted_spec segmented ends
        have start := Nat.div_mul_cancel (Nat.dvd_of_mod_eq_zero aligned)
        simp only [ends, if_true, Option.some.injEq] at carried
        refine ⟨_, ?_, ?_, carried.symm⟩
        · rw [start]
          exact genuine.past.1
        · rw [start]
          exact Nat.le_of_lt room
  obtain ⟨live, value, rfl, carried⟩ := answer
  -- The receiver stays honest, and the sender has not failed.
  have honest := unharmed.toHonest.answered segmented (i := i) (Nat.le_refl _) called (by
    intro other update same held
    obtain rfl := Except.ok.inj same
    exact carried update held)
  exact {
    honest with
    live := live
    accepted := by
      intro answer member
      rcases List.mem_append.mp member with before | new
      · exact unharmed.accepted answer before
      · rw [List.mem_singleton.mp new]
        simp }

/-- One event does no harm for as long as every request meets the sender's window. -/
theorem Unharmed.step {origin : Resource} {session final : Session} {profile : Profile}
    {action : Action} (segmented : Segmented origin) (wire : ∀ now, action ≠ .start true now)
    (before : (∀ answer ∈ session.answers, answer.Inside) → Unharmed origin session)
    (taken : Session.Steps profile session action final)
    (inside : ∀ answer ∈ final.answers, answer.Inside) : Unharmed origin final := by
  -- Only requests touch the sender, and each of them stays inside.
  by_cases asks : ∃ i packetHash now, action = .request i packetHash now
  · obtain ⟨i, packetHash, now, rfl⟩ := asks
    cases event_of_step taken with
    | request found called =>
      have unharmed := before fun answer member =>
        inside answer (List.mem_append_left _ member)
      exact unharmed.answered segmented found called (inside _ (by simp))
    | nothing => exact before inside
  · have quiet : ∀ i packetHash now, action ≠ .request i packetHash now :=
      fun i packetHash now same => asks ⟨i, packetHash, now, same⟩
    have event := event_of_step taken
    have same := event.answers_quiet quiet
    have unharmed := before (by rwa [same] at inside)
    obtain ⟨honest, sender, -⟩ := unharmed.toHonest.receiver_event segmented wire quiet event
    exact {
      honest with
      live := by rw [sender]; exact unharmed.live
      accepted := by rw [same]; exact unharmed.accepted }

/-- Eighty-two different slices. -/
private def slices : List Bytes := (List.range 82).map sliceOf

/-- The hashes of the slices, salted with zeros. -/
private def names : List FourBytes :=
  [⟨29, 131, 81, 139⟩, ⟨44, 144, 123, 4⟩, ⟨82, 123, 243, 157⟩, ⟨205, 32, 149, 115⟩,
   ⟨244, 69, 148, 249⟩, ⟨240, 219, 66, 224⟩, ⟨149, 50, 38, 233⟩, ⟨119, 165, 140, 214⟩,
   ⟨25, 54, 159, 193⟩, ⟨90, 147, 210, 193⟩, ⟨180, 27, 150, 175⟩, ⟨250, 61, 204, 53⟩,
   ⟨40, 159, 247, 133⟩, ⟨248, 28, 196, 42⟩, ⟨204, 170, 7, 130⟩, ⟨27, 99, 95, 40⟩,
   ⟨118, 158, 152, 91⟩, ⟨255, 15, 129, 83⟩, ⟨9, 27, 100, 228⟩, ⟨166, 190, 64, 254⟩,
   ⟨45, 39, 123, 5⟩, ⟨99, 37, 72, 12⟩, ⟨131, 159, 252, 117⟩, ⟨131, 240, 180, 210⟩,
   ⟨3, 164, 237, 194⟩, ⟨9, 18, 240, 254⟩, ⟨14, 96, 84, 105⟩, ⟨183, 183, 44, 137⟩,
   ⟨118, 191, 10, 95⟩, ⟨41, 81, 185, 152⟩, ⟨224, 187, 72, 226⟩, ⟨149, 74, 72, 94⟩,
   ⟨57, 86, 163, 77⟩, ⟨147, 116, 30, 227⟩, ⟨155, 215, 178, 100⟩, ⟨229, 242, 89, 232⟩,
   ⟨107, 162, 37, 9⟩, ⟨7, 132, 7, 214⟩, ⟨53, 170, 9, 210⟩, ⟨10, 153, 115, 57⟩, ⟨77, 50, 246, 216⟩,
   ⟨197, 217, 160, 61⟩, ⟨148, 28, 133, 84⟩, ⟨107, 229, 22, 119⟩, ⟨135, 163, 83, 254⟩,
   ⟨31, 195, 31, 8⟩, ⟨154, 212, 41, 169⟩, ⟨226, 46, 20, 61⟩, ⟨207, 190, 161, 116⟩,
   ⟨173, 84, 195, 210⟩, ⟨242, 132, 192, 107⟩, ⟨202, 82, 38, 174⟩, ⟨227, 106, 8, 119⟩,
   ⟨145, 19, 127, 212⟩, ⟨171, 55, 52, 85⟩, ⟨130, 46, 93, 100⟩, ⟨226, 153, 128, 9⟩,
   ⟨126, 7, 90, 136⟩, ⟨240, 145, 154, 189⟩, ⟨106, 168, 70, 236⟩, ⟨26, 233, 237, 137⟩,
   ⟨160, 248, 153, 93⟩, ⟨185, 64, 24, 48⟩, ⟨11, 146, 245, 92⟩, ⟨90, 211, 222, 25⟩,
   ⟨15, 131, 210, 83⟩, ⟨75, 58, 54, 166⟩, ⟨10, 234, 113, 249⟩, ⟨25, 129, 75, 190⟩,
   ⟨65, 8, 71, 140⟩, ⟨9, 19, 166, 124⟩, ⟨241, 109, 11, 215⟩, ⟨159, 129, 206, 102⟩,
   ⟨158, 201, 1, 253⟩, ⟨11, 25, 220, 43⟩, ⟨190, 212, 81, 25⟩, ⟨192, 238, 49, 216⟩,
   ⟨190, 73, 124, 47⟩, ⟨70, 58, 103, 90⟩, ⟨5, 226, 36, 166⟩, ⟨103, 246, 202, 200⟩,
   ⟨115, 152, 86, 86⟩]

/-- A packet hash for each delivery. -/
private def stamp (k : Nat) : Option Hash :=
  some ⟨List.replicate HASH_SIZE (UInt8.ofNat k), List.length_replicate⟩

end Resource

end Reticulum
