import ReticulumSdk.Resource.SenderLaws
import ReticulumSdk.Resource.StateLaws

/-! What a sender with named parts answers to a request, exactly. -/

namespace Reticulum

open Resource

namespace Resource

/-- A sender as its constructor leaves it: every part named, and close ones named apart. -/
structure Outgoing (r : Resource) : Prop where
  mdu : r.info.sdu < usizeRange
  small : r.info.totalParts < 2 ^ 60
  count : r.contents.length = r.info.totalParts
  hashes : r.hashmap = r.contents.map Prod.snd
  named : ∀ content ∈ r.contents, content.2 = mapHashOf content.1 r.info.randomHash
  apart : ∀ (i j : Nat) (first second : Bytes × MapHash), i < j →
    j ≤ i + collisionGuardSize r.info.sdu → r.contents[i]? = some first →
    r.contents[j]? = some second → first.2 ≠ second.2

/-- The constructor names its parts. -/
theorem new_outgoing {bzip2 : Bzip2} {draws : Draws} {data : Bytes} {linkMdu : Nat}
    {encrypt : Cipher} {requestId : Option Bytes} {isResponse autoCompress : Bool} {now : Instant}
    {r : Resource} (mdu : linkMdu < usizeRange)
    (built : Resource.new bzip2 draws data linkMdu encrypt requestId isResponse autoCompress now =
      .ok (some (.ok r))) : r.Outgoing := by
  -- The parts are the slices with their hashes, which the guard keeps apart where they are near.
  obtain ⟨payload, compressed, encryptedBuf, randomHash, parts, -, -, -, -, vector, guarded, rfl⟩ :=
    Resource.new_cases built
  have cut := guardedParts_parts guarded
  exact {
    mdu := mdu
    small := by
      unfold isizeRange at vector
      simp only [Resource.outgoing]
      omega
    count := by simp [contents, Resource.outgoing, cut]
    hashes := by simp [contents, Resource.outgoing, ResourcePart.content, Function.comp_def]
    named := by
      intro content member
      obtain ⟨part, inside, rfl⟩ := List.mem_map.mp member
      simp only [Resource.outgoing, cut, List.mem_map] at inside
      obtain ⟨slice, -, rfl⟩ := inside
      rfl
    apart := by
      intro i j first second order near here there
      simp only [contents, Resource.outgoing, List.getElem?_map, Option.map_eq_some_iff] at here there
      obtain ⟨early, earlyAt, rfl⟩ := here
      obtain ⟨late, lateAt, rfl⟩ := there
      exact guardedParts_distinct guarded order near earlyAt lateAt }

/-- The bytes of a part. -/
def dataAt (r : Resource) (i : Nat) : Bytes := ((r.contents[i]?).map Prod.fst).getD []

/-- Whether a part's hash is among those asked for. -/
def asked (r : Resource) (mapHashes : List MapHash) (i : Nat) : Bool :=
  (r.contents[i]?).any fun content => decide (content.2 ∈ mapHashes)

/-- Both read only what the parts are. -/
theorem reads_congr {r other : Resource} (same : r.contents = other.contents) :
    r.dataAt = other.dataAt ∧ r.asked = other.asked := by
  constructor
  · funext i
    simp only [dataAt, same]
  · funext mapHashes i
    simp only [asked, same]

/-- The parts of the sender's window that a list of hashes asks for. -/
def chosen (r : Resource) (mapHashes : List MapHash) : List Nat :=
  r.sendWindowAt.filter (r.asked mapHashes)

/-- Sending collects the parts asked for, in order. -/
theorem sendParts_sent {profile : Profile} {mapHashes : List MapHash} {now : Instant}
    {window : List Nat} {r final : Resource} {sent : List Bytes}
    (inside : ∀ i ∈ window, i < r.contents.length)
    (finished : sendParts profile mapHashes now window r = .ok (final, sent)) :
    sent = (window.filter (r.asked mapHashes)).map r.dataAt := by
  -- By induction over the window: what is left of it is read off the parts as marked so far.
  induction window generalizing r sent with
  | nil =>
    obtain ⟨-, rfl⟩ := Prod.mk.inj (Except.ok.inj finished)
    rfl
  | cons i rest ih =>
    have later : ∀ j ∈ rest, j < r.contents.length :=
      fun j member => inside j (List.mem_cons_of_mem _ member)
    have small := inside i List.mem_cons_self
    unfold sendParts at finished
    cases found : r.parts[i]? with
    | none =>
      have short := List.getElem?_eq_none_iff.mp found
      simp only [contents, List.length_map] at small
      omega
    | some part =>
      have content : r.contents[i]? = some part.content := by
        simp [contents, List.getElem?_map, found]
      simp only [found] at finished
      split at finished
      · rename_i wanted
        simp only [markSent, bind_eq_ok] at finished
        obtain ⟨marked, ⟨count, -, same⟩, ⟨after, behind⟩, loop, done⟩ := finished
        obtain rfl := Except.ok.inj same
        obtain ⟨rfl, rfl⟩ := Prod.mk.inj (Except.ok.inj done)
        -- Marking the part leaves the contents, and with them every later choice.
        have kept : contents { r with
            sentParts := count, parts := r.parts.set i { part with sent := true },
            timing := { r.timing with lastActivity := now, lastPartSent := some now } } =
            r.contents := map_content_set found
        have tail := ih (by rw [kept]; exact later) loop
        have hit : r.asked mapHashes i = true := by
          simp [asked, content, ResourcePart.content, wanted]
        have bytes : r.dataAt i = part.data := by simp [dataAt, content, ResourcePart.content]
        obtain ⟨sameData, sameAsked⟩ := reads_congr kept
        rw [sameData, sameAsked] at tail
        simp only [List.filter_cons, hit, if_true, List.map_cons, bytes]
        rw [tail]
      · rename_i unwanted
        have miss : r.asked mapHashes i = false := by
          simp [asked, content, ResourcePart.content, unwanted]
        simp only [List.filter_cons, miss]
        exact ih later finished

/-- The search for a named hash reads only what the parts are. -/
theorem findAfter_congr {parts others : List ResourcePart}
    (same : parts.map ResourcePart.content = others.map ResourcePart.content) (named : Bytes)
    (window : List Nat) : findAfter parts named window = findAfter others named window := by
  -- The search compares hashes only, and these are part of the content.
  induction window with
  | nil => rfl
  | cons i rest ih =>
    have here := congrArg (fun contents => contents[i]?) same
    simp only [List.getElem?_map] at here
    unfold findAfter
    cases first : parts[i]? with
    | none =>
      cases second : others[i]? with
      | none => simpa using ih
      | some other => simp [first, second] at here
    | some part =>
      cases second : others[i]? with
      | none => simp [first, second] at here
      | some other =>
        simp only [first, second, Option.map_some, Option.some.injEq, ResourcePart.content,
          Prod.mk.injEq] at here
        simp only [here.2, ih]

/-- The index a request's hashmap end points at, or the search start when it is not found. -/
def partIndex (r : Resource) (named : Bytes) : Nat :=
  (findAfter r.parts named r.sendWindowAt).getD r.receiverMinConsecutiveHeight

/-- The update that carries a segment. -/
def updateFor (r : Resource) (segment : Nat) : HmuPacket where
  hash := r.info.hash
  body := .array [.integer segment, .binary ((r.segmentHashes segment).flatMap FourBytes.toBytes)]

/-- The index stays inside the resource. -/
theorem partIndex_le {r : Resource} (start : r.receiverMinConsecutiveHeight ≤ r.info.totalParts)
    (named : Bytes) : r.partIndex named ≤ r.info.totalParts := by
  -- A part that is found lies inside the window, which ends with the parts.
  unfold partIndex
  cases found : findAfter r.parts named r.sendWindowAt with
  | none => exact start
  | some k =>
    obtain ⟨i, part, rfl, member, -, -⟩ := findAfter_some found
    have inside := (mem_sendWindowAt.mp member).2.2
    simp only [Option.getD_some]
    omega

/--
An answer carries the chosen parts and, when asked, the segment at the index named.
It fails, and the transfer with it, exactly when that index is not the start of a segment.
-/
theorem answerRequest_spec {profile : Profile} {r final : Resource} {request : PartRequest}
    {now : Instant} {result : Except RnsError ResourceRequestResult} (mdu : r.info.sdu < usizeRange)
    (small : r.info.totalParts < 2 ^ 60) (count : r.contents.length = r.info.totalParts)
    (start : r.receiverMinConsecutiveHeight ≤ r.info.totalParts)
    (finished : answerRequest profile r request now = .ok (final, result)) :
    let parts := (r.chosen request.mapHashes).map r.dataAt
    (request.lastMapHash = none ∧
      final.receiverMinConsecutiveHeight = r.receiverMinConsecutiveHeight ∧
      (final.status = r.status ∨ final.status = .awaitingProof) ∧
      ∃ allSent, result = .ok { parts := parts, hmuPacket := none, allSent := allSent }) ∨
    ∃ named, request.lastMapHash = some named ∧
      final.receiverMinConsecutiveHeight = r.partIndex named - (1 + WINDOW_MAX) ∧
      ((hashmapMaxLen r.info.sdu > 0 ∧ r.partIndex named % hashmapMaxLen r.info.sdu ≠ 0 ∧
          final.status = .failed ∧ result = .error .outOfMemory) ∨
        (¬ (hashmapMaxLen r.info.sdu > 0 ∧ r.partIndex named % hashmapMaxLen r.info.sdu ≠ 0) ∧
          (final.status = r.status ∨ final.status = .awaitingProof) ∧
          ∃ allSent, result = .ok {
            parts := parts
            hmuPacket := some (r.updateFor (segmentOf r.info.sdu (r.partIndex named)))
            allSent := allSent })) := by
  intro parts
  simp only [answerRequest, sendWindow_eq mdu small start, bind_eq_ok, Except.ok.injEq] at finished
  obtain ⟨window, rfl, ⟨sent, bytes⟩, sending, ⟨answered, answer⟩, answering, finished⟩ := finished
  have inside : ∀ i ∈ r.sendWindowAt, i < r.contents.length := by
    intro i member
    rw [count]
    exact (mem_sendWindowAt.mp member).2.2
  have collected : bytes = parts := sendParts_sent inside sending
  obtain ⟨marked, sentParts, active, last, rfl, kept⟩ := sendParts_frame sending
  subst collected
  -- Whether every part is out decides the status and the flag of an answer that does not fail.
  have finishes : ∀ (middle : Resource) (update : Option HmuPacket),
      (middle.finishRequest parts update).1.receiverMinConsecutiveHeight =
        middle.receiverMinConsecutiveHeight ∧
      ((middle.finishRequest parts update).1.status = middle.status ∨
        (middle.finishRequest parts update).1.status = .awaitingProof) ∧
      ∃ allSent, (middle.finishRequest parts update).2 =
        { parts := parts, hmuPacket := update, allSent := allSent } := by
    intro middle update
    unfold finishRequest
    split
    · exact ⟨rfl, .inr rfl, _, rfl⟩
    · exact ⟨rfl, .inl rfl, _, rfl⟩
  -- The search runs on the marked parts, which are the same parts.
  have index : ∀ named, (findAfter marked named r.sendWindowAt).getD
      r.receiverMinConsecutiveHeight = r.partIndex named :=
    fun named => by rw [partIndex, findAfter_congr (by exact kept)]
  obtain ⟨rfl, silent, rfl⟩ | ⟨named, spoken, failed | passed⟩ := answerHashmap_cases answering
  · left
    obtain ⟨rfl, rfl⟩ := Prod.mk.inj (Except.ok.inj finished)
    obtain ⟨height, status, allSent, packed⟩ := finishes { r with
      parts := marked, sentParts := sentParts,
      timing := { r.timing with lastActivity := active, lastPartSent := last } } none
    exact ⟨silent, height, status, allSent, by rw [← packed]⟩
  · right
    simp only [index] at failed
    obtain ⟨⟨positive, misaligned⟩, rfl, rfl⟩ := failed
    obtain ⟨rfl, rfl⟩ := Prod.mk.inj (Except.ok.inj finished)
    exact ⟨named, spoken, rfl, .inl ⟨positive, misaligned, rfl, rfl⟩⟩
  · right
    simp only [index] at passed
    obtain ⟨aligned, rfl, update, cut, rfl⟩ := passed
    rw [segmentFrom_eq (by exact mdu) (by exact small) (by exact partIndex_le start named)] at cut
    obtain rfl := Except.ok.inj cut
    obtain ⟨rfl, rfl⟩ := Prod.mk.inj (Except.ok.inj finished)
    obtain ⟨height, status, allSent, packed⟩ := finishes { r with
      parts := marked, sentParts := sentParts,
      receiverMinConsecutiveHeight := r.partIndex named - (1 + WINDOW_MAX),
      timing := { r.timing with lastActivity := active, lastPartSent := last } }
      (some (r.updateFor (segmentOf r.info.sdu (r.partIndex named))))
    exact ⟨named, spoken, height, .inr ⟨aligned, status, allSent, by rw [← packed]; rfl⟩⟩

end Resource

end Reticulum
