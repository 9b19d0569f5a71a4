import ReticulumSdk.Resource.AnswerLaws
import ReticulumSdk.Resource.Bookkeeping
import ReticulumSdk.Resource.Session

/-! What one event does to a session, and what honest hashmap segments do to a receiver. -/

namespace Reticulum

open Resource Slots

/-- The events of a session, each with the call behind it. -/
inductive Event (profile : Profile) (session : Session) : Action → Session → Prop where
  | start {whole : Bool} {now : Instant} {receiver : Resource} {result : Except RnsError Bytes}
      (called : session.receiver.startReceive profile (session.initialHashmap whole) now =
        .ok (receiver, result)) :
      Event profile session (.start whole now) (session.built receiver result)
  | build {receiver : Resource} {result : Except RnsError Bytes}
      (called : session.receiver.buildRequest profile = .ok (receiver, result)) :
      Event profile session .build (session.built receiver result)
  | timeout {now : Instant} {receiver : Resource} {action : Except RnsError ResourceTimeoutAction}
      (called : session.receiver.checkTimeout profile now = .ok (receiver, action)) :
      Event profile session (.timeout now) (session.built receiver (Session.retried action))
  | request {i : Nat} {packetHash : Option Hash} {now : Instant} {request : BuiltRequest}
      {sender : Resource} {result : Except RnsError ResourceRequestResult}
      (found : session.requests[i]? = some request)
      (called : session.sender.handleRequest profile request.bytes packetHash now =
        .ok (sender, result)) :
      Event profile session (.request i packetHash now) { session with
        sender := sender
        answers := session.answers ++ [⟨i, request, packetHash, session.sender, result⟩] }
  | part {i : Nat} {now : Instant} {partData : Bytes} {receiver : Resource} {found : Bool}
      (sent : partData ∈ session.parts)
      (called : session.receiver.receivePart profile partData now = .ok (receiver, found)) :
      Event profile session (.part i now) { session with receiver := receiver }
  | update {i : Nat} {update : HmuPacket} {receiver : Resource} (sent : update ∈ session.updates)
      (called : Session.applyUpdate profile session.receiver update = .ok receiver) :
      Event profile session (.update i) { session with receiver := receiver }
  | nothing {action : Action} : Event profile session action session

/-- Every step is one of the events. -/
theorem event_of_step {profile : Profile} {session final : Session} {action : Action}
    (finished : session.step profile action = .ok final) : Event profile session action final := by
  -- Each action calls one side once, or finds nothing to deliver.
  cases action with
  | start whole now =>
    simp only [Session.step, bind_eq_ok] at finished
    obtain ⟨⟨receiver, result⟩, called, done⟩ := finished
    obtain rfl := Except.ok.inj done
    exact .start called
  | build =>
    simp only [Session.step, bind_eq_ok] at finished
    obtain ⟨⟨receiver, result⟩, called, done⟩ := finished
    obtain rfl := Except.ok.inj done
    exact .build called
  | timeout now =>
    simp only [Session.step, bind_eq_ok] at finished
    obtain ⟨⟨receiver, result⟩, called, done⟩ := finished
    obtain rfl := Except.ok.inj done
    exact .timeout called
  | request i packetHash now =>
    simp only [Session.step] at finished
    split at finished
    · obtain rfl := Except.ok.inj finished
      exact .nothing
    · rename_i request found
      simp only [bind_eq_ok] at finished
      obtain ⟨⟨sender, result⟩, called, done⟩ := finished
      obtain rfl := Except.ok.inj done
      exact .request found called
  | part i now =>
    simp only [Session.step] at finished
    split at finished
    · obtain rfl := Except.ok.inj finished
      exact .nothing
    · rename_i partData found
      simp only [bind_eq_ok] at finished
      obtain ⟨⟨receiver, hit⟩, called, done⟩ := finished
      obtain rfl := Except.ok.inj done
      exact .part (List.mem_of_getElem? found) called
  | update i =>
    simp only [Session.step] at finished
    split at finished
    · obtain rfl := Except.ok.inj finished
      exact .nothing
    · rename_i update found
      simp only [bind_eq_ok] at finished
      obtain ⟨receiver, called, done⟩ := finished
      obtain rfl := Except.ok.inj done
      exact .update (List.mem_of_getElem? found) called

namespace Session

/-- Building a request changes the receiver and the requests only. -/
theorem built_frame (session : Session) (receiver : Resource) (result : Except RnsError Bytes) :
    ∃ requests, session.built receiver result = { session with
        receiver := receiver, requests := session.requests ++ requests } ∧
      ∀ request ∈ requests, result = .ok request.bytes ∧ request.builder = receiver := by
  cases result with
  | ok bytes => exact ⟨[⟨bytes, receiver⟩], rfl, by simp⟩
  | error fault => exact ⟨[], by simp [built], by simp⟩

/-- The parts on the network after one more answer. -/
theorem mem_parts_answer {session : Session} {answer : Answer} {sender : Resource} {sent : Bytes} :
    sent ∈ Session.parts { session with
        sender := sender, answers := session.answers ++ [answer] } ↔
      sent ∈ session.parts ∨ ∃ result, answer.result = .ok result ∧ sent ∈ result.parts := by
  cases result : answer.result with
  | ok value => simp [parts, result]
  | error fault => simp [parts, result]

/-- The updates on the network after one more answer. -/
theorem mem_updates_answer {session : Session} {answer : Answer} {sender : Resource}
    {update : HmuPacket} :
    update ∈ Session.updates { session with
        sender := sender, answers := session.answers ++ [answer] } ↔
      update ∈ session.updates ∨
        ∃ result, answer.result = .ok result ∧ result.hmuPacket = some update := by
  -- Only an answer without an error carries an update.
  cases result : answer.result with
  | ok value => simp [updates, result]
  | error fault => simp [updates, result]

end Session

/-- Only a request adds an answer. -/
theorem Event.answers_quiet {profile : Profile} {session final : Session} {action : Action}
    (event : Event profile session action final)
    (quiet : ∀ i packetHash now, action ≠ .request i packetHash now) :
    final.answers = session.answers := by
  -- Only requests are answered.
  cases event with
  | request found called => exact absurd rfl (quiet _ _ _)
  | start called | build called | timeout called =>
    obtain ⟨added, built, -⟩ := session.built_frame _ _
    rw [built]
  | part sent called | update sent called | nothing => rfl

namespace Resource

/-- A buffer of hashes that are the origin's from some index on. -/
def HonestFrom (origin : Resource) (start : Nat) (hashes : List MapHash) : Prop :=
  ∀ j mapHash, hashes[j]? = some mapHash → origin.hashmap[start + j]? = some mapHash

/-- A segment of the origin's hashmap is honest at its start. -/
theorem segmentHashes_honest (origin : Resource) (segment : Nat) :
    origin.HonestFrom (segment * hashmapMaxLen origin.info.sdu) (origin.segmentHashes segment) := by
  -- A segment is a slice of the sender's hashmap, starting where it says.
  intro j mapHash found
  simp only [segmentHashes, List.getElem?_drop, List.getElem?_take] at found
  split at found
  · exact found
  · cases found

/-- The hashes a receiver starts from are the origin's. -/
theorem initialHashmap_honest {origin : Resource} {session : Session} {whole : Bool}
    (adv : session.adv = .fromResource origin) :
    origin.HonestFrom 0 (FourBytes.chunks (session.initialHashmap whole)) := by
  -- The advertisement carries the origin's own hashes, all of them or the first segment.
  intro j mapHash found
  rw [Nat.zero_add]
  unfold Session.initialHashmap at found
  rw [adv] at found
  split at found
  · simpa [ResourceAdvertisement.fromResource] using found
  · simp only [ResourceAdvertisement.hashmapSegment, FourBytes.chunks_flatMap, Nat.zero_mul,
      List.drop_zero, List.getElem?_take] at found
    split at found
    · simpa [ResourceAdvertisement.fromResource] using found
    · cases found

/-- Honest hashes end where the origin's do. -/
theorem HonestFrom.length_le {origin : Resource} {start : Nat} {hashes : List MapHash}
    (honest : origin.HonestFrom start hashes) (nonempty : hashes ≠ []) :
    start + hashes.length ≤ origin.hashmap.length := by
  have positive := List.length_pos_iff.mpr nonempty
  have last := List.getElem?_eq_getElem (show hashes.length - 1 < hashes.length by omega)
  obtain ⟨inside, -⟩ := List.getElem?_eq_some_iff.mp (honest _ _ last)
  omega

/-- A receiver whose hashes are the origin's where they are known at all. -/
def KnowsOnly (r origin : Resource) : Prop :=
  ∀ (i : Nat) (mapHash : MapHash), r.hashmap[i]? = some mapHash →
    mapHash = FourBytes.zero ∨ origin.hashmap[i]? = some mapHash

/-- Honest hashes leave only the origin's hashes known. -/
theorem applyHashmap_knowsOnly {profile : Profile} {r final origin : Resource} {segment : Nat}
    {hashmapData : Bytes} {result : Except RnsError Unit} (outgoing : origin.Outgoing)
    (sized : r.hashmap.length = r.info.totalParts) (known : r.KnowsOnly origin)
    (inside : segment * hashmapMaxLen r.info.sdu ≤ origin.info.totalParts)
    (honest : origin.HonestFrom (segment * hashmapMaxLen r.info.sdu) (FourBytes.chunks hashmapData))
    (finished : applyHashmap profile r segment hashmapData = .ok (final, result)) :
    final.KnowsOnly origin := by
  -- Without room for a hash nothing is learnt.
  by_cases some : hashmapMaxLen r.info.sdu = 0
  · simp only [applyHashmap, some, if_true] at finished
    obtain ⟨rfl, -⟩ := Prod.mk.inj (Except.ok.inj finished)
    exact known
  · have small := outgoing.small
    have total : origin.hashmap.length = origin.info.totalParts := by
      rw [outgoing.hashes, List.length_map, outgoing.count]
    have fits : segment * hashmapMaxLen r.info.sdu + (FourBytes.chunks hashmapData).length ≤
        usizeRange := by
      unfold usizeRange
      by_cases empty : FourBytes.chunks hashmapData = []
      · rw [empty, List.length_nil]
        omega
      · have := honest.length_le empty
        omega
    obtain ⟨-, height, -, rfl⟩ := applyHashmap_overlay sized some fits finished
    intro i mapHash found
    simp only [getElem?_overlay] at found
    -- A place under the segment has the segment's hash, and any other what it had.
    split at found
    · rename_i covered
      have shifted := honest _ _ found
      rw [Nat.add_sub_cancel' covered.1] at shifted
      exact .inr shifted
    · exact known i mapHash found

/-- The driver reads an update back as the segment it carries. -/
theorem applyUpdate_updateFor {profile : Profile} {r origin : Resource} {segment : Nat}
    (small : segment < 2 ^ 60) :
    Session.applyUpdate profile r (origin.updateFor segment) =
      Prod.fst <$> r.applyHashmap profile segment
        ((origin.segmentHashes segment).flatMap FourBytes.toBytes) := by
  -- The segment number is read back as it was written.
  have read : (Value.integer (segment : Int)).asI64 = some (segment : Int) := by
    simp only [Value.asI64]
    rw [if_pos (by unfold isizeRange; omega)]
  simp only [Session.applyUpdate, updateFor, Value.asArray, Value.asSlice, read, Option.getD_some]
  rw [asUsize_natCast (by unfold usizeRange; omega)]

end Resource

end Reticulum
