import ReticulumSdk.Resource.SessionLaws

/-! Whatever the network does, a receiver holds the sender's parts and assembles its data. -/

namespace Reticulum

open Resource Slots

namespace Resource

/-- What handling a request keeps, and what it puts on the network. -/
theorem handleRequest_answer {profile : Profile} {r final : Resource} {requestData : Bytes}
    {packetHash : Option Hash} {now : Instant} {result : Except RnsError ResourceRequestResult}
    (outgoing : r.Outgoing) (start : r.receiverMinConsecutiveHeight ≤ r.info.totalParts)
    (finished : handleRequest profile r requestData packetHash now = .ok (final, result)) :
    (final.info = r.info ∧ final.contents = r.contents ∧ final.hashmap = r.hashmap) ∧
    final.receiverMinConsecutiveHeight ≤ r.info.totalParts ∧
    ∀ answer, result = .ok answer →
      (∀ sent ∈ answer.parts, ∃ content ∈ r.contents, content.1 = sent) ∧
      ∀ update, answer.hmuPacket = some update →
        ∃ k ≤ r.info.totalParts, update = r.updateFor (segmentOf r.info.sdu k) := by
  -- Whatever the exit, only the progress of the sender changes.
  have frame : final.info = r.info ∧ final.contents = r.contents ∧ final.hashmap = r.hashmap := by
    obtain ⟨status, parts, sentParts, height, hashes, rtt, active, last, retries, rfl, kept⟩ :=
      handleRequest_frame finished
    exact ⟨rfl, kept, rfl⟩
  refine ⟨frame, ?_⟩
  obtain ⟨-, rfl, rfl⟩ | ⟨-, -, rfl, rfl⟩ | ⟨-, -, fault, -, rfl, rfl⟩ |
    ⟨-, -, request, -, answered⟩ := handleRequest_cases finished
  · exact ⟨start, by simp⟩
  · refine ⟨start, ?_⟩
    intro answer same
    obtain rfl := Except.ok.inj same
    simp
  · obtain ⟨hashes, remembered⟩ := rememberRequest_frame r packetHash
    rw [remembered]
    exact ⟨start, by simp⟩
  · obtain ⟨hashes, remembered⟩ := rememberRequest_frame r packetHash
    rw [remembered] at answered
    -- What is chosen is at a place among the contents.
    have picked : ∀ sent ∈ (r.chosen request.mapHashes).map r.dataAt,
        ∃ content ∈ r.contents, content.1 = sent := by
      intro sent member
      obtain ⟨i, inside, rfl⟩ := List.mem_map.mp member
      have hit := (List.mem_filter.mp inside).2
      cases found : r.contents[i]? with
      | none => simp [asked, found] at hit
      | some content => exact ⟨content, List.mem_of_getElem? found, by simp [dataAt, found]⟩
    obtain ⟨-, height, -, allSent, rfl⟩ |
      ⟨named, -, height, ⟨-, -, -, rfl⟩ | ⟨-, -, allSent, rfl⟩⟩ :=
      answerRequest_spec (by exact outgoing.mdu) (by exact outgoing.small)
        (by exact outgoing.count) (by exact start) answered
    · -- No hashmap is asked for, and the height stays.
      refine ⟨height ▸ start, ?_⟩
      intro answer same
      obtain rfl := Except.ok.inj same
      exact ⟨picked, by simp⟩
    · -- The part named is inside, whether it begins a segment or not.
      have inside : r.partIndex named ≤ r.info.totalParts := partIndex_le start named
      refine ⟨?_, by simp⟩
      rw [height]
      exact Nat.le_trans (Nat.sub_le _ _) inside
    · have inside : r.partIndex named ≤ r.info.totalParts := partIndex_le start named
      refine ⟨?_, ?_⟩
      · rw [height]
        exact Nat.le_trans (Nat.sub_le _ _) inside
      · intro answer same
        obtain rfl := Except.ok.inj same
        refine ⟨picked, ?_⟩
        intro update carried
        exact ⟨r.partIndex named, inside, (Option.some.inj carried).symm⟩

/-- A sender is known by its information, its parts and its hashes. -/
theorem Outgoing.congr {r other : Resource} (outgoing : other.Outgoing) (info : r.info = other.info)
    (contents : r.contents = other.contents) (hashmap : r.hashmap = other.hashmap) : r.Outgoing where
  mdu := info ▸ outgoing.mdu
  small := info ▸ outgoing.small
  count := by rw [contents, info]; exact outgoing.count
  hashes := by rw [hashmap, contents]; exact outgoing.hashes
  named := by rw [contents, info]; exact outgoing.named
  apart := by rw [contents, info]; exact outgoing.apart

/-- The updates of a sender depend on its information and its hashes only. -/
theorem updateFor_congr {r other : Resource} (info : r.info = other.info)
    (hashmap : r.hashmap = other.hashmap) : r.updateFor = other.updateFor := by
  funext segment
  simp only [updateFor, segmentHashes, info, hashmap]

/-- Two ends that agree on what names the parts and how many there are. -/
structure Linked (origin peer : Resource) : Prop where
  sdu : peer.info.sdu = origin.info.sdu
  totalParts : peer.info.totalParts = origin.info.totalParts
  randomHash : peer.info.randomHash = origin.info.randomHash

/-- What holds of a session between honest ends, whatever the network did so far. -/
structure Faithful (origin peer : Resource) (session : Session) : Prop where
  adv : session.adv = .fromResource origin
  info : session.sender.info = origin.info
  contents : session.sender.contents = origin.contents
  hashmap : session.sender.hashmap = origin.hashmap
  start : session.sender.receiverMinConsecutiveHeight ≤ origin.info.totalParts
  parts : ∀ sent ∈ session.parts, ∃ content ∈ origin.contents, content.1 = sent
  updates : ∀ update ∈ session.updates, ∃ k ≤ origin.info.totalParts,
    update = origin.updateFor (segmentOf origin.info.sdu k)
  peer : session.receiver.info = peer.info
  books : session.receiver.Bookkeeping
  known : session.receiver.KnowsOnly origin
  received : ∀ (i : Nat) (data : Bytes), session.receiver.receivedParts[i]? = some (some data) →
    ∃ mapHash, origin.contents[i]? = some (data, mapHash)

namespace Faithful

variable {origin peer : Resource} {session : Session}

/-- A receiver that only asked or was told honest hashes keeps the session faithful. -/
theorem asked (faithful : Faithful origin peer session) {receiver : Resource}
    (requests : List BuiltRequest) (info : receiver.info = session.receiver.info)
    (books : receiver.Bookkeeping) (known : receiver.KnowsOnly origin)
    (same : receiver.receivedParts = session.receiver.receivedParts) :
    Faithful origin peer { session with receiver := receiver, requests := requests } := by
  -- Building requests changes neither the parts received nor the names known.
  exact {
    faithful with
    peer := info.trans faithful.peer
    books := books
    known := known
    received := by
      intro i data held
      exact faithful.received i data (same ▸ held) }

/-- The same for the session a built request leads to. -/
theorem built (faithful : Faithful origin peer session) {receiver : Resource}
    (result : Except RnsError Bytes) (info : receiver.info = session.receiver.info)
    (books : receiver.Bookkeeping) (known : receiver.KnowsOnly origin)
    (same : receiver.receivedParts = session.receiver.receivedParts) :
    Faithful origin peer (session.built receiver result) := by
  obtain ⟨requests, built, -⟩ := session.built_frame receiver result
  rw [built]
  exact faithful.asked _ info books known same

/-- A hash of the origin names one part of it. -/
theorem index_unique (outgoing : origin.Outgoing) (distinct : origin.hashmap.Nodup)
    {content : Bytes × MapHash} (member : content ∈ origin.contents) {i : Nat}
    (hash : origin.hashmap[i]? = some content.2) : origin.contents[i]? = some content := by
  -- Distinct hashes stand at one place each.
  obtain ⟨j, found⟩ := List.mem_iff_getElem?.mp member
  have named : origin.hashmap[j]? = some content.2 := by
    rw [outgoing.hashes, List.getElem?_map, found]
    rfl
  obtain ⟨inside, -⟩ := List.getElem?_eq_some_iff.mp hash
  have same : i = j := (List.getElem?_inj inside distinct).mp (hash.trans named.symm)
  rw [same, found]

/-- A part taken from the network goes to the slot the sender cut it for. -/
theorem received_at (faithful : Faithful origin peer session) (outgoing : origin.Outgoing)
    (linked : Linked origin peer) (distinct : origin.hashmap.Nodup)
    (nonzero : FourBytes.zero ∉ origin.hashmap) {partData : Bytes} (sent : partData ∈ session.parts)
    {i : Nat} (hash : session.receiver.hashmap[i]? =
      some (mapHashOf partData session.receiver.info.randomHash)) :
    ∃ mapHash, origin.contents[i]? = some (partData, mapHash) := by
  -- A part is one of the origin's, and the place it goes to has its hash.
  obtain ⟨content, member, rfl⟩ := faithful.parts partData sent
  have named := outgoing.named content member
  rw [faithful.peer, linked.randomHash, ← named] at hash
  have listed : content.2 ∈ origin.hashmap := by
    rw [outgoing.hashes]
    exact List.mem_map_of_mem member
  rcases faithful.known i content.2 hash with zero | same
  · exact absurd (zero ▸ listed) nonzero
  · exact ⟨content.2, index_unique outgoing distinct member same⟩

/-- Every event keeps a session between honest ends faithful. -/
theorem step (faithful : Faithful origin peer session) (outgoing : origin.Outgoing)
    (linked : Linked origin peer) (distinct : origin.hashmap.Nodup)
    (nonzero : FourBytes.zero ∉ origin.hashmap) {profile : Profile} {action : Action}
    {final : Session} (event : Event profile session action final) :
    Faithful origin peer final := by
  have books := faithful.books
  have mdu : session.receiver.info.sdu = origin.info.sdu := by rw [faithful.peer, linked.sdu]
  -- One case for each event: what it changes, the frame lemmas of the operation say.
  cases event with
  | @start whole now receiver result called =>
    have started : Bookkeeping { session.receiver with
        status := .transferring
        timing := { session.receiver.timing with lastActivity := now } } := { books with }
    obtain ⟨applied, answer, applying, ending⟩ := startReceive_cases called
    have known : applied.KnowsOnly origin :=
      applyHashmap_knowsOnly outgoing started.sized (by exact faithful.known) (by simp)
        (by simpa using initialHashmap_honest faithful.adv) applying
    obtain ⟨kept, -⟩ := applyHashmap_books started applying
    obtain ⟨hashmap, height, waiting, rfl, -⟩ := applyHashmap_frame applying
    obtain ⟨-, -, rfl, -⟩ | ⟨-, building⟩ := ending
    · exact faithful.built result rfl kept known rfl
    · obtain ⟨ends, -⟩ := buildRequest_books kept building
      obtain ⟨outstanding, asking, rfl⟩ := buildRequest_frame building
      exact faithful.built result rfl ends known rfl
  | build called =>
    obtain ⟨ends, -⟩ := buildRequest_books books called
    obtain ⟨outstanding, asking, rfl⟩ := buildRequest_frame called
    exact faithful.built _ rfl ends faithful.known rfl
  | @timeout now receiver result called =>
    have performed : perform profile session.receiver (.checkTimeout now) = .ok receiver := by
      simp [perform, called, Functor.map, Except.map]
    obtain ⟨ends, -⟩ := perform_books books performed
    obtain ⟨rfl, -⟩ | ⟨rfl, -⟩ | ⟨retries, advRetries, rfl, -⟩ |
      ⟨-, retries, flow, request, -, asked, -⟩ := checkTimeout_cases called
    · exact faithful.built _ rfl ends faithful.known rfl
    · exact faithful.built _ rfl ends faithful.known rfl
    · exact faithful.built _ rfl ends faithful.known rfl
    · obtain ⟨outstanding, asking, rfl⟩ := buildRequest_frame asked
      exact faithful.built _ rfl ends faithful.known rfl
  | @request i packetHash now request sender result found called =>
    -- Only the sender moves, and it answers with parts and updates of its own.
    have sending := outgoing.congr faithful.info faithful.contents faithful.hashmap
    obtain ⟨⟨info, contents, hashmap⟩, start, answered⟩ :=
      handleRequest_answer sending (by rw [faithful.info]; exact faithful.start) called
    rw [faithful.info] at start
    exact {
      faithful with
      info := info.trans faithful.info
      contents := contents.trans faithful.contents
      hashmap := hashmap.trans faithful.hashmap
      start := start
      parts := by
        intro sent member
        rcases Session.mem_parts_answer.mp member with before | ⟨value, same, inside⟩
        · exact faithful.parts sent before
        · rw [← faithful.contents]
          exact (answered value same).1 sent inside
      updates := by
        intro update member
        rcases Session.mem_updates_answer.mp member with before | ⟨value, same, carried⟩
        · exact faithful.updates update before
        · obtain ⟨k, inside, equal⟩ := (answered value same).2 update carried
          rw [updateFor_congr faithful.info faithful.hashmap] at equal
          rw [faithful.info] at inside equal
          exact ⟨k, inside, equal⟩ }
  | @part i now partData receiver hit sent called =>
    obtain ⟨timing, flow, bounded, ⟨-, -, rfl⟩ | ⟨-, -, rfl⟩ |
      ⟨-, -, slot, grown, bytes, -, hash, empty, within, rfl⟩⟩ := receivePart_cases books called
    · exact faithful.asked _ rfl { books with bounded := bounded } faithful.known rfl
    · exact faithful.asked _ rfl { books with bounded := bounded } faithful.known rfl
    · have moving : Bookkeeping { session.receiver with
          status := .transferring, timing := timing, flow := flow } :=
        { books with bounded := bounded }
      obtain ⟨kept, -⟩ := moving.withPart partData bytes empty within
      exact {
        faithful with
        books := { kept with }
        received := by
          intro j data held
          simp only [withPart, List.getElem?_set] at held
          split at held
          · -- The slot just filled holds the part that was sent for it.
            rename_i same
            split at held
            · obtain rfl := Option.some.inj (Option.some.inj held)
              exact same ▸ faithful.received_at outgoing linked distinct nonzero sent hash
            · cases held
          · exact faithful.received j data held }
  | @update i update receiver sent called =>
    -- An update was made by the sender, of one segment of its hashmap.
    obtain ⟨k, inside, rfl⟩ := faithful.updates update sent
    have small := outgoing.small
    have start := segmentOf_mul_le origin.info.sdu k
    have segment := segmentOf_le origin.info.sdu k
    rw [applyUpdate_updateFor (by omega)] at called
    obtain ⟨⟨applied, answer⟩, applying, rfl⟩ := map_eq_ok.mp called
    have known : applied.KnowsOnly origin :=
      applyHashmap_knowsOnly outgoing books.sized faithful.known (by rw [mdu]; omega)
        (by rw [mdu, FourBytes.chunks_flatMap]; exact segmentHashes_honest origin _) applying
    obtain ⟨kept, -⟩ := applyHashmap_books books applying
    obtain ⟨hashmap, height, waiting, rfl, -⟩ := applyHashmap_frame applying
    exact faithful.asked _ rfl kept known rfl
  | nothing => exact faithful

end Faithful

/-- The advertisement's flags give back the bits they were made of. -/
private theorem flags_read (encrypted compressed split request response metadata : Bool) :
    let flags : UInt8 := (if encrypted then 0x01 else 0) ||| (if compressed then 0x02 else 0)
      ||| (if split then 0x04 else 0) ||| (if request then 0x08 else 0)
      ||| (if response then 0x10 else 0) ||| (if metadata then 0x20 else 0)
    (flags &&& 0x01 != 0) = encrypted ∧ (flags &&& 0x02 != 0) = compressed := by
  revert encrypted compressed split request response metadata
  decide

/-- What a receiver learns about a resource from its advertisement. -/
structure Advertised (origin peer : Resource) : Prop extends Linked origin peer where
  hash : peer.info.hash = origin.info.hash
  size : peer.info.size = origin.info.size
  encrypted : peer.info.encrypted = origin.info.encrypted
  compressed : peer.info.compressed = origin.info.compressed
  uncompressedSize : peer.info.uncompressedSize = origin.info.totalSize

/-- A receiver built from the sender's own advertisement, on the same link, learns just that. -/
theorem newFromAdvertisement_advertised {profile : Profile} {origin peer : Resource}
    {linkMdu : Nat} {rtt : Duration} {requestId : Option Bytes} {now : Instant}
    (mdu : origin.info.sdu = linkMdu)
    (built : newFromAdvertisement profile (.fromResource origin) linkMdu rtt requestId now =
      .ok peer) : Advertised origin peer := by
  -- The two flags are read from the byte they were written to.
  simp only [newFromAdvertisement, bind_eq_ok] at built
  obtain ⟨bytes, -, _, -, _, -, made⟩ := built
  obtain rfl := Except.ok.inj made
  obtain ⟨encrypted, compressed⟩ := flags_read origin.info.encrypted origin.info.compressed
    origin.info.split (origin.info.requestId.isSome && !origin.info.isResponse)
    (origin.info.requestId.isSome && origin.info.isResponse) origin.info.hasMetadata
  exact {
    sdu := mdu.symm
    totalParts := rfl
    randomHash := rfl
    hash := rfl
    size := rfl
    encrypted := encrypted
    compressed := compressed
    uncompressedSize := rfl }

/-- Before the first message a session between the two ends is faithful. -/
theorem begin_faithful {profile : Profile} {origin peer : Resource} {linkMdu : Nat}
    {rtt : Duration} {requestId : Option Bytes} {now : Instant}
    (start : origin.receiverMinConsecutiveHeight ≤ origin.info.totalParts)
    (built : newFromAdvertisement profile (.fromResource origin) linkMdu rtt requestId now =
      .ok peer) : Faithful origin peer (.begin origin peer) := by
  -- Nothing has been sent, and every hash and every part is still missing.
  have books := newFromAdvertisement_bookkeeping built
  simp only [newFromAdvertisement, bind_eq_ok] at built
  obtain ⟨bytes, -, _, -, _, -, made⟩ := built
  obtain rfl := Except.ok.inj made
  exact {
    adv := rfl
    info := rfl
    contents := rfl
    hashmap := rfl
    start := start
    parts := by simp [Session.begin, Session.parts]
    updates := by simp [Session.begin, Session.updates]
    peer := rfl
    books := books
    known := by
      intro i mapHash found
      simp only [Session.begin, List.getElem?_replicate] at found
      split at found
      · exact .inl (Option.some.inj found).symm
      · cases found
    received := by
      intro i data held
      simp only [Session.begin, List.getElem?_replicate] at held
      split at held <;> simp at held }

/-- A full buffer joins to the concatenation of what its slots hold. -/
theorem joinParts_full {slots : List (Option Bytes)} {slices : List Bytes}
    (same : slots = slices.map some) : joinParts slots = some slices.flatten := by
  subst same
  induction slices with
  | nil => rfl
  | cons slice rest ih => simp [joinParts, ih]

/-- A receiver that counts every part holds the sender's parts in order. -/
theorem Faithful.full {origin peer : Resource} {session : Session}
    (faithful : Faithful origin peer session) (outgoing : origin.Outgoing)
    (linked : Linked origin peer) (all : session.receiver.allPartsReceived = true) :
    session.receiver.receivedParts = (origin.contents.map Prod.fst).map some := by
  -- As many parts were received as there are slots, so no slot is empty.
  have books := faithful.books
  have total : session.receiver.receivedParts.length = origin.contents.length := by
    rw [books.slots, outgoing.count, faithful.peer, linked.totalParts]
  have counted : session.receiver.receivedParts.length ≤
      filledCount session.receiver.receivedParts := by
    simp only [allPartsReceived, decide_eq_true_eq, ge_iff_le] at all
    rw [books.slots, ← books.count]
    exact all
  apply List.ext_getElem?
  intro i
  by_cases inside : i < session.receiver.receivedParts.length
  · obtain ⟨data, held⟩ := exists_of_filledCount counted inside
    obtain ⟨mapHash, content⟩ := faithful.received i data held
    simp [held, content]
  · rw [List.getElem?_eq_none (by omega), List.getElem?_eq_none (by simpa using by omega)]

section Assembly

variable {bzip2 : Bzip2} {draws : Draws} {data : Bytes} {linkMdu : Nat} {encrypt decrypt : Cipher}
  {requestId : Option Bytes} {isResponse autoCompress : Bool} {now : Instant} {origin : Resource}

/-- The payload a sender chose is turned back into its data. -/
theorem choosePayload_restored {payload : Bytes} {compressed : Bool}
    (lossless : ∀ plain packed limit, bzip2.encode plain = some packed →
      bzip2.decode packed limit = some (plain.take limit))
    (chosen : choosePayload bzip2 data autoCompress = .ok (payload, compressed)) :
    (if compressed then bzip2Decompress bzip2 payload AUTO_COMPRESS_MAX_SIZE
      else .ok payload) = .ok data := by
  unfold choosePayload at chosen
  split at chosen
  · rename_i tried
    simp only [Bool.and_eq_true, decide_eq_true_eq] at tried
    simp only [bind_eq_ok] at chosen
    obtain ⟨packed, packing, chosen⟩ := chosen
    split at chosen
    · -- Compression helped, and data small enough to be compressed is small enough to be read.
      obtain ⟨rfl, rfl⟩ := Prod.mk.inj (Except.ok.inj chosen)
      have encoded : bzip2.encode data = some packed := by
        unfold bzip2Compress at packing
        split at packing
        · rename_i found
          rw [found, Except.ok.inj packing]
        · cases packing
      have whole : data.take (AUTO_COMPRESS_MAX_SIZE + 1) = data :=
        List.take_of_length_le (by omega)
      have small : ¬ data.length > AUTO_COMPRESS_MAX_SIZE := by omega
      simp [bzip2Decompress, lossless _ _ _ encoded, whole, small]
    · obtain ⟨rfl, rfl⟩ := Prod.mk.inj (Except.ok.inj chosen)
      rfl
  · obtain ⟨rfl, rfl⟩ := Prod.mk.inj (Except.ok.inj chosen)
    rfl

/-- A full receiver assembles the data and proves it to the sender. -/
theorem assemble_proves
    (built : Resource.new bzip2 draws data linkMdu encrypt requestId isResponse autoCompress now =
      .ok (some (.ok origin)))
    (inverse : ∀ plain sealed, encrypt.run plain = .ok sealed → decrypt.run sealed = .ok plain)
    (lossless : ∀ plain packed limit, bzip2.encode plain = some packed →
      bzip2.decode packed limit = some (plain.take limit))
    {peer r sender : Resource} (advertised : Advertised origin peer) (info : r.info = peer.info)
    (full : r.receivedParts = (origin.contents.map Prod.fst).map some)
    (same : sender.info = origin.info) :
    ∃ final, r.assemble bzip2 decrypt = .ok (final, .ok data) ∧
      sender.validateProof final.buildProof = true := by
  obtain ⟨payload, compressed, encryptedBuf, randomHash, parts, chosen, encrypted, positive, buffer,
    -, guarded, rfl⟩ := Resource.new_cases built
  -- The parts join to the encrypted stream, which opens to the payload.
  have slices : (Resource.contents (.outgoing draws.randomHash randomHash data encryptedBuf parts
      linkMdu compressed requestId isResponse now)).map Prod.fst = cutParts encryptedBuf linkMdu := by
    simp [contents, Resource.outgoing, guardedParts_parts guarded, ResourcePart.content,
      Function.comp_def]
  have stream : joinParts r.receivedParts = some encryptedBuf := by
    rw [joinParts_full full, slices, cutParts_flatten positive]
  have opened : decrypt.run encryptedBuf = .ok (draws.inlineRandom.toBytes ++ payload) :=
    inverse _ _ encrypted
  have stripped : (draws.inlineRandom.toBytes ++ payload).drop RANDOM_HASH_SIZE = payload := rfl
  have long : ¬ (draws.inlineRandom.toBytes ++ payload).length < RANDOM_HASH_SIZE := by
    simp [RANDOM_HASH_SIZE]
  have restored := choosePayload_restored lossless chosen
  -- What the receiver goes by is what was advertised.
  have sealedFlag : r.info.encrypted = true := by rw [info, advertised.encrypted]; rfl
  have packedFlag : r.info.compressed = compressed := by rw [info, advertised.compressed]; rfl
  have length : r.info.uncompressedSize = data.length := by
    rw [info, advertised.uncompressedSize]; rfl
  have hash : r.info.hash = Hash.generate (data ++ randomHash.toBytes) := by
    rw [info, advertised.hash]; rfl
  have salt : r.info.randomHash = randomHash := by rw [info, advertised.randomHash]; rfl
  have size : r.info.size = encryptedBuf.length := by rw [info, advertised.size]; rfl
  refine ⟨{ r with status := .assembling, assembledPlaintext := data }, ?_, ?_⟩
  · -- With all of this no check of the assembly fails.
    have room : allocate encryptedBuf.length 1 = .ok () := by simp [allocate, buffer]
    simp only [assemble, size, room, assembleStream, stream, sealedFlag, if_true, opened, long,
      if_false, stripped, packedFlag, restored, length, bne_self_eq_false, Bool.and_false, salt, hash,
      ne_eq, not_true_eq_false, Bool.false_eq_true, Bind.bind, Except.bind]
    rfl
  · -- The proof is the hash that the sender computed beforehand.
    have proof : sender.info.expectedProof =
        Hash.generate (data ++ (Hash.generate (data ++ randomHash.toBytes)).bytes) := by
      rw [same]; rfl
    have width := (Hash.generate (data ++ randomHash.toBytes)).length_eq
    have proofWidth := (Hash.generate (data ++
      (Hash.generate (data ++ randomHash.toBytes)).bytes)).length_eq
    simp only [validateProof, buildProof, hash, proof, List.length_append, width, proofWidth]
    rw [if_neg (by decide), List.drop_append_of_le_length (by omega), List.drop_of_length_le (by omega)]
    simp

/--
Whatever is lost, repeated, delayed or reordered between honest ends, every part a receiver holds
is the sender's part of that index, and a receiver that has all of them assembles the original data
and convinces the sender with its proof.
-/
theorem transfer_correct {profile : Profile} {receiverRequestId : Option Bytes} {rtt : Duration}
    {later : Instant} {receiver : Resource} {actions : List Action} {session : Session}
    (mdu : 138 ≤ linkMdu ∧ linkMdu < usizeRange)
    (built : Resource.new bzip2 draws data linkMdu encrypt requestId isResponse autoCompress now =
      .ok (some (.ok origin)))
    (advertised : newFromAdvertisement profile (.fromResource origin) linkMdu rtt receiverRequestId
      later = .ok receiver)
    (inverse : ∀ plain sealed, encrypt.run plain = .ok sealed → decrypt.run sealed = .ok plain)
    (lossless : ∀ plain packed limit, bzip2.encode plain = some packed →
      bzip2.decode packed limit = some (plain.take limit))
    (distinct : origin.hashmap.Nodup) (nonzero : FourBytes.zero ∉ origin.hashmap)
    (run : Run (Session.Steps profile) (.begin origin receiver) actions session) :
    (∀ (i : Nat) (received : Bytes), session.receiver.receivedParts[i]? = some (some received) →
      ∃ part, session.sender.parts[i]? = some part ∧ part.data = received) ∧
    (session.receiver.allPartsReceived = true →
      ∃ final, session.receiver.assemble bzip2 decrypt = .ok (final, .ok data) ∧
        session.sender.validateProof final.buildProof = true) := by
  have outgoing := new_outgoing mdu.2 built
  have sdu : origin.info.sdu = linkMdu ∧ origin.receiverMinConsecutiveHeight = 0 := by
    obtain ⟨payload, compressed, encryptedBuf, randomHash, parts, -, -, -, -, -, -, rfl⟩ :=
      Resource.new_cases built
    exact ⟨rfl, rfl⟩
  have linked := newFromAdvertisement_advertised sdu.1 advertised
  -- Every step of the run keeps the session faithful to the origin.
  have kept : ∀ state action final, Faithful origin receiver state →
      Session.Steps profile state action final → Faithful origin receiver final :=
    fun state action final faithful taken =>
      faithful.step outgoing linked.toLinked distinct nonzero (event_of_step taken)
  have faithful := run.invariant kept
    (begin_faithful (by rw [sdu.2]; exact Nat.zero_le _) advertised)
  constructor
  · intro i received held
    obtain ⟨mapHash, content⟩ := faithful.received i received held
    rw [← faithful.contents, contents, List.getElem?_map, Option.map_eq_some_iff] at content
    obtain ⟨part, found, same⟩ := content
    exact ⟨part, found, congrArg Prod.fst same⟩
  · intro all
    exact assemble_proves built inverse lossless linked faithful.peer
      (faithful.full outgoing linked.toLinked all) faithful.info

end Assembly

/-- The events of a transfer in two segments, with one part delivered twice. -/
private def twoSegments : List Action :=
  [.start false 0, .request 0 none 1, .part 0 2, .part 0 3, .update 0, .build, .request 1 none 4,
    .part 1 5]

/-- A transfer in two segments with a repeated part ends with the data and an accepted proof. -/
theorem transfer_correct_two_segments :
    ∃ origin receiver session,
      Resource.new storeBzip2 ⟨.zero, .zero, []⟩ (List.replicate 140 7) 138 copyCipher none false
        false 0 = .ok (some (.ok origin)) ∧
      newFromAdvertisement .debug (.fromResource origin) 138 0 none 0 = .ok receiver ∧
      Run (Session.Steps .debug) (.begin origin receiver) twoSegments session ∧
      session.receiver.allPartsReceived = true ∧
      ∃ final, session.receiver.assemble storeBzip2 copyCipher =
          .ok (final, .ok (List.replicate 140 7)) ∧
        session.sender.validateProof final.buildProof = true := by
  -- The transfer is evaluated up to the last part; what follows is the theorem.
  have evaluated : ((plainResource (List.replicate 140 7) 138).any fun origin =>
      decide (origin.hashmap.Nodup ∧ FourBytes.zero ∉ origin.hashmap) &&
      passes (newFromAdvertisement .debug (.fromResource origin) 138 0 none 0) fun receiver =>
        passes (Session.stepAll .debug (.begin origin receiver) twoSegments) fun session =>
          session.receiver.allPartsReceived) = true := by
    decide +kernel
  obtain ⟨origin, made, passed⟩ := (Option.any_eq_true _ _).mp evaluated
  simp only [Bool.and_eq_true, decide_eq_true_eq] at passed
  obtain ⟨⟨distinct, nonzero⟩, passed⟩ := passed
  obtain ⟨receiver, advertised, passed⟩ := exists_of_passes passed
  obtain ⟨session, finished, all⟩ := exists_of_passes passed
  have built := new_of_plainResource made
  have run := Session.run_of_stepAll finished
  refine ⟨origin, receiver, session, built, advertised, run, all, ?_⟩
  exact (transfer_correct (by decide) built advertised copyCipher_inverse storeBzip2_lossless distinct
    nonzero run).2 all

end Resource

end Reticulum
