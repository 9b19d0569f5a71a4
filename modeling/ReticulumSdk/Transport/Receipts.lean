import ReticulumSdk.Transport.Tracking

/-! When the receipts a node gives for its sent packets are sound and complete. -/

namespace Reticulum.Tracking

variable (crates : Crates)

/-- Some proof since the packet was sent, on the link it was sent over, proves it. -/
def ProvenSince (tracking : Tracking) (item : SentPacket) : Prop :=
  ∃ seen ∈ tracking.proofs.drop item.since, seen.2.packet.destination = item.linkId ∧
    seen.1.Proves crates seen.2 item.packetHash item.destination

/--
The receipts are sound and complete: each is for a packet that was proven before, no packet has
two, and every packet `send_to_out_links` returned has its receipt once it was proven.
-/
structure Faithful (tracking : Tracking) : Prop where
  sound : ∀ receipt ∈ tracking.handler.receipts, ∃ seen ∈ tracking.proofs,
    seen.1.Proves crates seen.2 receipt.packetHash receipt.destination
  single : (tracking.handler.receipts.map (·.packetHash)).Nodup
  complete : ∀ item ∈ tracking.returned, tracking.ProvenSince crates item →
    ∃ receipt ∈ tracking.handler.receipts, receipt.packetHash = item.packetHash

/-- The hashes of the packets that are being sent, are tracked, or have their receipt. -/
def known (tracking : Tracking) : List Hash :=
  tracking.sending.map (·.packetHash) ++
    (tracking.handler.pendingProofs.values.map (·.originalPacketHash) ++
      tracking.handler.receipts.map (·.packetHash))

/--
The tracker is used where it works: no packet is sent or tracked twice, none is tracked under an
address that is still awaited, and a proof for an awaited address proves the packet it is awaited
for, and none that is sent but not yet tracked.
-/
def Careful (tracking : Tracking) (event : TrackingEvent) : Prop :=
  match event with
  | .transmit now iv place destination payload =>
    ∀ linkId packetHash next, tracking.handler.sendOver crates now iv place destination payload =
      some (linkId, packetHash, next) → packetHash ∉ tracking.known
  | .record _ item => tracking.handler.pendingProofs.lookup item.linkId = none
  | .track _ packetHash _ =>
    tracking.handler.pendingProofs.lookup (.newFromHash packetHash) = none ∧
      packetHash ∉ tracking.known
  | .proof arrival =>
    (∀ pending, tracking.handler.pendingProofs.lookup arrival.packet.destination = some pending →
      tracking.handler.Proves crates arrival pending.originalPacketHash
        pending.destinationAddress) ∧
    ∀ item ∈ tracking.sending, item.linkId = arrival.packet.destination →
      ¬ tracking.handler.Proves crates arrival item.packetHash item.destination
  | .other => True

/-- A returned packet has its receipt, or is awaited and was not proven. -/
def Settled (tracking : Tracking) (item : SentPacket) : Prop :=
  (∃ receipt ∈ tracking.handler.receipts, receipt.packetHash = item.packetHash) ∨
    ((∃ pending, tracking.handler.pendingProofs.lookup item.linkId = some pending ∧
      pending.originalPacketHash = item.packetHash) ∧ ¬ tracking.ProvenSince crates item)

/-- What holds along every careful run. -/
structure Orderly (tracking : Tracking) : Prop where
  sound : ∀ receipt ∈ tracking.handler.receipts, ∃ seen ∈ tracking.proofs,
    seen.1.Proves crates seen.2 receipt.packetHash receipt.destination
  once : tracking.known.Nodup
  unproven : ∀ item ∈ tracking.sending, ¬ tracking.ProvenSince crates item
  settled : ∀ item ∈ tracking.returned, tracking.Settled crates item

variable {crates : Crates} {tracking after : Tracking}

/-- An orderly state is faithful. -/
theorem Orderly.faithful (orderly : tracking.Orderly crates) : tracking.Faithful crates where
  sound := orderly.sound
  single := by
    have whole := orderly.once
    unfold known at whole
    exact whole.of_append_right.of_append_right
  complete item returned proven := by
    rcases orderly.settled item returned with receipted | ⟨-, unproven⟩
    · exact receipted
    · exact absurd proven unproven

/-- A node that has tracked nothing is orderly. -/
theorem new_orderly (handler : TransportHandler) : (new handler).Orderly crates where
  sound receipt member := by cases member
  once := by simp [known, new]
  unproven item member := by cases member
  settled item member := by cases member

/-- One more proof proves only what it is a proof of. -/
theorem ProvenSince.of_snoc {item : SentPacket} {seen : TransportHandler × Arrival}
    (grown : after.proofs = tracking.proofs ++ [seen]) (proven : after.ProvenSince crates item) :
    tracking.ProvenSince crates item ∨ (seen.2.packet.destination = item.linkId ∧
      seen.1.Proves crates seen.2 item.packetHash item.destination) := by
  -- The proof is one of those seen before or the one that came last.
  obtain ⟨other, member, addressed, proves⟩ := proven
  rw [grown, List.drop_append] at member
  rcases List.mem_append.mp member with earlier | last
  · exact .inl ⟨other, earlier, addressed, proves⟩
  · obtain rfl := List.mem_singleton.mp (List.mem_of_mem_drop last)
    exact .inr ⟨addressed, proves⟩

/-- What is proven depends on the proofs alone. -/
theorem provenSince_congr {item : SentPacket} (same : after.proofs = tracking.proofs) :
    after.ProvenSince crates item ↔ tracking.ProvenSince crates item := by
  unfold ProvenSince
  rw [same]

/-- Where only the sent packets and untracked state change, returned packets stay settled. -/
theorem Settled.mono {item : SentPacket} (settled : tracking.Settled crates item)
    (receipts : after.handler.receipts = tracking.handler.receipts)
    (proofs : after.proofs = tracking.proofs)
    (awaited : ∀ pending, tracking.handler.pendingProofs.lookup item.linkId = some pending →
      after.handler.pendingProofs.lookup item.linkId = some pending) :
    after.Settled crates item := by
  rcases settled with receipted | ⟨⟨pending, found, hash⟩, unproven⟩
  · exact .inl (by rwa [receipts])
  · exact .inr ⟨⟨pending, awaited pending found, hash⟩, by rwa [provenSince_congr proofs]⟩

/-- An address under which something is inserted where nothing was is another one. -/
private theorem lookup_insert_free {table : Table AddressHash PendingProof} {key other : AddressHash}
    {new pending : PendingProof} (free : table.lookup key = none)
    (found : table.lookup other = some pending) :
    (table.insert key new).lookup other = some pending := by
  have different : other ≠ key := fun same => by
    rw [same, free] at found
    cases found
  rw [AList.lookup_insert_ne different, found]

/-- Sending keeps order. -/
private theorem transmit_orderly {linkId destination : AddressHash} {packetHash : Hash}
    {next : TransportHandler} (orderly : tracking.Orderly crates)
    (same : TransportHandler.SameReceipts tracking.handler next)
    (fresh : packetHash ∉ tracking.known) :
    Orderly crates { tracking with
      handler := next
      sending := tracking.sending ++
        [⟨linkId, packetHash, destination, tracking.proofs.length⟩] } where
  sound := by
    rw [same.receipts]
    exact orderly.sound
  once := by
    have whole := orderly.once.cons fresh
    unfold known at whole ⊢
    dsimp only
    rw [same.receipts, same.pendingProofs, List.map_append, List.append_assoc]
    exact List.perm_middle.nodup_iff.mpr whole
  unproven item member := by
    rcases List.mem_append.mp member with earlier | new
    · exact orderly.unproven item earlier
    · -- No proof has arrived since.
      obtain rfl := List.mem_singleton.mp new
      rintro ⟨seen, late, -⟩
      simp at late
  settled item member := (orderly.settled item member).mono same.receipts rfl fun pending found => by
    dsimp only
    rw [same.pendingProofs, found]

/-- Tracking a sent packet under a free address keeps order. -/
private theorem record_orderly {now : Instant} {item : SentPacket}
    (orderly : tracking.Orderly crates) (member : item ∈ tracking.sending)
    (free : tracking.handler.pendingProofs.lookup item.linkId = none) :
    Orderly crates { tracking with
      handler := tracking.handler.recordSent now item.linkId item.packetHash item.destination
      sending := tracking.sending.erase item
      returned := tracking.returned ++ [item] } where
  sound := orderly.sound
  once := by
    -- The hash moves from the sent packets to the tracked ones.
    have moved : (tracking.sending.map (·.packetHash)).Perm
        (item.packetHash :: (tracking.sending.erase item).map (·.packetHash)) :=
      (List.perm_cons_erase member).map _
    have whole := (moved.append_right _).nodup_iff.mp orderly.once
    unfold known TransportHandler.recordSent
    dsimp only
    rw [Table.values_insert free, List.map_cons, List.cons_append]
    exact List.perm_middle.nodup_iff.mpr whole
  unproven other rest := orderly.unproven other (List.mem_of_mem_erase rest)
  settled other returned := by
    rcases List.mem_append.mp returned with earlier | new
    · exact (orderly.settled other earlier).mono rfl rfl fun pending found =>
        lookup_insert_free free found
    · obtain rfl := List.mem_singleton.mp new
      refine .inr ⟨⟨_, AList.lookup_insert _, rfl⟩, ?_⟩
      exact orderly.unproven other member

/-- Tracking another packet under a free address keeps order. -/
private theorem track_orderly {now : Instant} {packetHash : Hash} {destination : AddressHash}
    (orderly : tracking.Orderly crates)
    (free : tracking.handler.pendingProofs.lookup (.newFromHash packetHash) = none)
    (fresh : packetHash ∉ tracking.known) :
    Orderly crates { tracking with
      handler := tracking.handler.trackPendingProof now packetHash destination } where
  -- The hash tracked is new, so it becomes one more known hash and settles nothing.
  sound := orderly.sound
  once := by
    have whole := orderly.once.cons fresh
    unfold known TransportHandler.trackPendingProof at *
    dsimp only
    rw [Table.values_insert free, List.map_cons, List.cons_append]
    exact List.perm_middle.nodup_iff.mpr whole
  unproven := orderly.unproven
  settled item returned := (orderly.settled item returned).mono rfl rfl fun pending found =>
    lookup_insert_free free found

/-- A proof for an address that is not awaited keeps order. -/
private theorem proof_orderly_unawaited {arrival : Arrival} {next : TransportHandler}
    (orderly : tracking.Orderly crates)
    (unawaited : tracking.handler.pendingProofs.lookup arrival.packet.destination = none)
    (early : ∀ item ∈ tracking.sending, item.linkId = arrival.packet.destination →
      ¬ tracking.handler.Proves crates arrival item.packetHash item.destination)
    (same : TransportHandler.SameReceipts tracking.handler next) :
    Orderly crates { tracking with
      handler := next
      proofs := tracking.proofs ++ [(tracking.handler, arrival)] } where
  -- No proof is awaited under this destination, so the tables stay and only the record of proofs grows.
  sound receipt member := by
    rw [same.receipts] at member
    obtain ⟨seen, before, proves⟩ := orderly.sound receipt member
    exact ⟨seen, List.mem_append_left _ before, proves⟩
  once := by
    have whole := orderly.once
    unfold known at whole ⊢
    rwa [← same.receipts, ← same.pendingProofs] at whole
  unproven item member proven := by
    rcases proven.of_snoc rfl with before | ⟨addressed, proves⟩
    · exact orderly.unproven item member before
    · exact early item member addressed.symm proves
  settled item returned := by
    rcases orderly.settled item returned with receipted | ⟨⟨pending, found, hash⟩, unproven⟩
    · exact .inl (by rwa [same.receipts])
    · refine .inr ⟨⟨pending, by rwa [same.pendingProofs], hash⟩, fun proven => ?_⟩
      rcases proven.of_snoc rfl with before | ⟨addressed, -⟩
      · exact unproven before
      · rw [← addressed, unawaited] at found
        cases found

/-- A proof of the packet that is awaited under its address keeps order. -/
private theorem proof_orderly_awaited {arrival : Arrival} {next : TransportHandler}
    {pending : PendingProof} {receipt : PacketReceipt} (orderly : tracking.Orderly crates)
    (awaited : tracking.handler.pendingProofs.lookup arrival.packet.destination = some pending)
    (proves : tracking.handler.Proves crates arrival receipt.packetHash receipt.destination)
    (early : ∀ item ∈ tracking.sending, item.linkId = arrival.packet.destination →
      ¬ tracking.handler.Proves crates arrival item.packetHash item.destination)
    (hash : receipt.packetHash = pending.originalPacketHash)
    (pendingProofs : next.pendingProofs =
      tracking.handler.pendingProofs.erase arrival.packet.destination)
    (receipts : next.receipts = tracking.handler.receipts ++ [receipt]) :
    Orderly crates { tracking with
      handler := next
      proofs := tracking.proofs ++ [(tracking.handler, arrival)] } where
  sound other member := by
    rw [receipts] at member
    rcases List.mem_append.mp member with earlier | new
    · obtain ⟨seen, before, shown⟩ := orderly.sound other earlier
      exact ⟨seen, List.mem_append_left _ before, shown⟩
    · obtain rfl := List.mem_singleton.mp new
      exact ⟨_, List.mem_append_right _ (List.mem_singleton_self _), proves⟩
  once := by
    -- The hash moves from the tracked packets to the receipts.
    have moved := (Table.values_erase awaited).map (·.originalPacketHash)
    rw [List.map_cons, ← hash] at moved
    have whole := ((moved.append_right
      (tracking.handler.receipts.map (·.packetHash))).append_left _).nodup_iff.mp orderly.once
    unfold known
    dsimp only
    rw [pendingProofs, receipts, List.map_append]
    refine (List.Perm.append_left _ ?_).nodup_iff.mpr whole
    rw [← List.append_assoc]
    exact List.perm_append_singleton _ _
  unproven item member proven := by
    rcases proven.of_snoc rfl with before | ⟨addressed, shown⟩
    · exact orderly.unproven item member before
    · exact early item member addressed.symm shown
  settled item returned := by
    rcases orderly.settled item returned with ⟨given, member, same⟩ | ⟨⟨held, found, named⟩, unproven⟩
    · exact .inl ⟨given, by rw [receipts]; exact List.mem_append_left _ member, same⟩
    · by_cases here : item.linkId = arrival.packet.destination
      · -- This is the packet that gets its receipt.
        rw [here, awaited] at found
        obtain rfl := Option.some.inj found
        refine .inl ⟨receipt, ?_, hash.trans named⟩
        rw [receipts]
        exact List.mem_append_right _ (List.mem_singleton_self _)
      · refine .inr ⟨⟨held, ?_, named⟩, fun proven => ?_⟩
        · dsimp only
          rw [pendingProofs, AList.lookup_erase_ne here, found]
        · rcases proven.of_snoc rfl with before | ⟨addressed, -⟩
          · exact unproven before
          · exact here addressed.symm

/-- Every careful step keeps order. -/
theorem Step.orderly {event : TrackingEvent} (step : tracking.Step crates event after)
    (careful : tracking.Careful crates event) (orderly : tracking.Orderly crates) :
    after.Orderly crates := by
  -- A careful event keeps every receipt sound and every sent packet receipted or awaited.
  cases event with
  | transmit now iv place destination payload =>
    obtain ⟨linkId, packetHash, next, sent, rfl⟩ := step
    exact transmit_orderly orderly (TransportHandler.sendOver_sameReceipts sent)
      (careful linkId packetHash next sent)
  | record now item =>
    obtain ⟨member, rfl⟩ := step
    exact record_orderly orderly member careful
  | track now packetHash destination =>
    obtain rfl := step
    exact track_orderly orderly careful.1 careful.2
  | proof arrival =>
    obtain ⟨-, next, pending, handled, rfl⟩ := step
    have taken := TransportHandler.handleProof_receipts handled
    unfold TransportHandler.takeReceipt at taken
    split at taken <;> rename_i awaited
    · exact proof_orderly_unawaited orderly awaited careful.2 taken
    · exact proof_orderly_awaited orderly awaited (careful.1 _ awaited) careful.2 rfl
        taken.pendingProofs taken.receipts
  | other =>
    obtain ⟨next, pendingProofs, receipts, rfl⟩ := step
    refine ⟨by rw [receipts]; exact orderly.sound, ?_, orderly.unproven, fun item returned => ?_⟩
    · have whole := orderly.once
      unfold known at whole ⊢
      rwa [← receipts, ← pendingProofs] at whole
    · exact (orderly.settled item returned).mono receipts rfl fun pending found => by
        rwa [pendingProofs]

end Reticulum.Tracking

namespace Reticulum

open Tracking in
/--
In every state that a run of careful steps reaches the receipts are sound and complete: each is for
a packet that a proof received before it proves, no packet has two, and every packet that
`send_to_out_links` returned and that its peer proved has one.
-/
theorem receipts_faithful_of_careful {crates : Crates} {handler : TransportHandler}
    {final : Tracking} {events : List TrackingEvent}
    (run : Run (fun tracking event after => tracking.Step crates event after ∧
      tracking.Careful crates event) (Tracking.new handler) events final) :
    final.Faithful crates := by
  have orderly : final.Orderly crates :=
    run.invariant (fun _ _ _ before step => step.1.orderly step.2 before) (new_orderly handler)
  exact orderly.faithful

/-- A node for concrete runs with one active link to a destination. -/
private def talking : TransportHandler :=
  { TransportHandler.new ⟨.filled 0, false, false, true, false⟩ with
    outLink := fun _ => .sample (.filled 2)
    outLinks := AList.insert (.filled 9) 0 ∅
    outLinksByLinkId := AList.insert (.filled 1) 0 ∅ }

/-- A vector of one byte repeated. -/
private def ivOf (byte : UInt8) : Iv := ⟨List.replicate IV_KEY_SIZE byte, List.length_replicate⟩

/-- The packet that carries a payload of one byte over that link, by its vector. -/
private def packetOf (byte : UInt8) : Packet :=
  match (LocalLink.sample (.filled 2)).dataPacket ((Fernet.ofDerivedKey Crates.sample.suite
      (LocalLink.sample (.filled 2)).derivedKey).cipher (ivOf byte)) [9] with
  | .ok packet => packet
  | .error _ => (LocalLink.sample (.filled 2)).provePacket

/-- What the node keeps of it until it tracks it. -/
private def itemOf (byte : UInt8) : SentPacket :=
  ⟨.filled 1, (packetOf byte).hash, .filled 9, 0⟩

/-- A proof for the link, on the interface it is bound to. -/
private def proofArrival (data : Bytes) : Arrival where
  packet := {
    header := { Link.header .proof with hops := 1 }
    destination := .filled 1
    transport := none
    context := .none
    data := data }
  iface := .filled 2
  radio := ⟨none, none⟩
  around := ⟨5, ivOf 0, false⟩
  secret := ⟨.filled 0, fun _ _ => []⟩

/-- The peer's proof of a packet. -/
private def peerProof (byte : UInt8) : Arrival :=
  proofArrival ((LocalLink.sample (.filled 2)).messageProof (packetOf byte).hash).data

/-- The node after it has sent a packet. -/
private def sentBy (tracking : Tracking) (byte : UInt8) : Tracking :=
  { tracking with
    handler := (tracking.handler.prepare 1 (packetOf byte)).2
    sending := tracking.sending ++ [itemOf byte] }

/-- The node after it has sent a packet and tracked it. -/
private def trackedBy (tracking : Tracking) (byte : UInt8) : Tracking :=
  { sentBy tracking byte with
    handler := (sentBy tracking byte).handler.recordSent 1 (.filled 1) (packetOf byte).hash
      (.filled 9)
    sending := (sentBy tracking byte).sending.erase (itemOf byte)
    returned := tracking.returned ++ [itemOf byte] }

/-- The link can send a byte with either vector. -/
private theorem packetOf_built (byte : UInt8) (small : byte = 0 ∨ byte = 1) :
    (LocalLink.sample (.filled 2)).dataPacket ((Fernet.ofDerivedKey Crates.sample.suite
      (LocalLink.sample (.filled 2)).derivedKey).cipher (ivOf byte)) [9] = .ok (packetOf byte) := by
  -- The packet is evaluated for each of the two bytes.
  have built : passes ((LocalLink.sample (.filled 2)).dataPacket ((Fernet.ofDerivedKey
      Crates.sample.suite (LocalLink.sample (.filled 2)).derivedKey).cipher (ivOf byte)) [9])
        (fun _ => true) = true := by
    rcases small with rfl | rfl <;> decide +kernel
  obtain ⟨packet, made, -⟩ := exists_of_passes built
  unfold packetOf
  rw [made]

/-- So a node with that link sends it. -/
private theorem transmit_step {tracking : Tracking} {byte : UInt8} (small : byte = 0 ∨ byte = 1)
    (link : tracking.handler.outLink 0 = .sample (.filled 2)) (early : tracking.proofs = []) :
    tracking.Step .sample (.transmit 1 (ivOf byte) 0 (.filled 9) [9]) (sentBy tracking byte) := by
  -- The sample link is active, so the packet is built and sent.
  have sent : tracking.handler.sendOver .sample 1 (ivOf byte) 0
      (tracking.handler.outLink 0).destination.addressHash [9] =
        some ((tracking.handler.outLink 0).id, (packetOf byte).hash,
          (tracking.handler.prepare 1 (packetOf byte)).2) :=
    TransportHandler.sendOver_eq (by rw [link]; rfl) (by rw [link]; exact packetOf_built byte small)
  rw [link] at sent
  have counted : tracking.proofs.length = 0 := by rw [early]; rfl
  refine ⟨_, _, _, sent, ?_⟩
  rw [counted]
  rfl

/-- And then tracks it. -/
private theorem record_step (tracking : Tracking) (byte : UInt8) :
    (sentBy tracking byte).Step .sample (.record 1 (itemOf byte)) (trackedBy tracking byte) :=
  ⟨List.mem_append_right _ (List.mem_singleton_self _), rfl⟩

/-- The last packet sent is awaited, and nothing else changed that a proof depends on. -/
private theorem trackedBy_awaits (tracking : Tracking) (byte : UInt8) :
    (trackedBy tracking byte).handler.pendingProofs.lookup (.filled 1) =
        some ⟨(packetOf byte).hash, .filled 9, 1⟩ ∧
      (trackedBy tracking byte).handler.receipts = tracking.handler.receipts ∧
      TransportHandler.SameLinks tracking.handler (trackedBy tracking byte).handler ∧
      (trackedBy tracking byte).handler.singleOutDestinations =
        tracking.handler.singleOutDestinations := by
  -- Preparing the packet changes the caches only, not the proofs awaited.
  unfold trackedBy sentBy TransportHandler.recordSent
  dsimp only
  rw [TransportHandler.prepare_frame]
  exact ⟨AList.lookup_insert _, rfl, ⟨rfl, rfl, rfl⟩, rfl⟩

/-- What a proof for the link does then: the last packet gets the receipt. -/
private theorem proof_step (tracking : Tracking) (byte : UInt8) (data : Bytes) :
    ∃ final, (trackedBy tracking byte).Step .sample (.proof (proofArrival data)) final ∧
      final.handler.receipts = tracking.handler.receipts ++
        [⟨(packetOf byte).hash, .filled 9, ⟨none, none⟩⟩] ∧
      final.proofs = tracking.proofs ++ [((trackedBy tracking byte).handler, proofArrival data)] ∧
      final.returned = tracking.returned ++ [itemOf byte] := by
  -- A proof packet without the link proof's context always finishes, and the proof awaited becomes a
  -- receipt.
  obtain ⟨awaited, receipts, -⟩ := trackedBy_awaits tracking byte
  obtain ⟨next, pending, handled⟩ : ∃ next pending,
      (trackedBy tracking byte).handler.handleProof .sample (proofArrival data).around
        (proofArrival data).packet (proofArrival data).radio (proofArrival data).iface =
          .ok (next, pending) := TransportHandler.handleProof_total rfl (by simp [proofArrival])
  have taken := (TransportHandler.handleProof_receipts handled).receipts
  refine ⟨_, ⟨rfl, next, pending, handled, rfl⟩, ?_, rfl, rfl⟩
  have found : (trackedBy tracking byte).handler.pendingProofs.lookup
      (proofArrival data).packet.destination = _ := awaited
  rw [taken, TransportHandler.takeReceipt, found]
  exact congrArg (· ++ _) receipts

/-- The peer's proof of the packet proves it. -/
private theorem peerProof_proves {handler : TransportHandler} (byte : UInt8)
    (same : TransportHandler.SameLinks talking handler) :
    handler.Proves .sample (peerProof byte) (packetOf byte).hash (.filled 9) := by
  -- The proof carries the hash and the peer's signature of it.
  refine .overLink (.sample (.filled 2)) ?_ (LocalLink.acceptsInterface_of_bound rfl) ?_
  · rw [same.outLinkById]
    rfl
  · have verified := (LocalLink.sample (.filled 2)).validateMessageProof_messageProof
      (LocalLink.sample (.filled 2)).verifyPeer (packetOf byte).hash (some (packetOf byte).hash)
    rwa [if_pos (by simp [LocalLink.sample, Link.sample])] at verified

/-- It proves no other packet. -/
private theorem peerProof_proves_only {handler : TransportHandler} {byte : UInt8} {packetHash : Hash}
    {destination : AddressHash} (unknown : handler.singleOutDestinations = ∅)
    (proves : handler.Proves .sample (peerProof byte) packetHash destination) :
    packetHash = (packetOf byte).hash := by
  -- A proof over the link carries the hash it proves, and there is no other destination to prove for.
  cases proves with
  | overLink link found accepted verified =>
    have carried : Link.validateMessageProof link.verifyPeer (peerProof byte).packet.data
        (some packetHash) = _ := Link.validateMessageProof_messageProof _ _ _ _
    rw [carried] at verified
    split at verified
    · exact (Except.ok.inj verified).symm
    · cases verified
  | direct desc found =>
    rw [unknown] at found
    cases found

/-- A proof without a signature proves nothing. -/
private theorem unsigned_proves_nothing {handler : TransportHandler} {packetHash : Hash}
    {destination : AddressHash} :
    ¬ handler.Proves .sample (proofArrival []) packetHash destination := by
  intro proves
  cases proves with
  | overLink link found accepted verified => cases verified
  | direct desc found addressed verified => cases verified

/-- A packet that is sent, tracked and proven gets its receipt. -/
theorem receipts_faithful_of_careful_one :
    ∃ events final, Run (fun tracking event after => tracking.Step .sample event after ∧
        tracking.Careful .sample event) (Tracking.new talking) events final ∧
      final.handler.receipts.map (·.packetHash) = final.returned.map (·.packetHash) ∧
      final.returned.length = 1 ∧ final.Faithful .sample := by
  obtain ⟨final, proved, receipts, proofs, returned⟩ := proof_step (Tracking.new talking) 0
    (peerProof 0).packet.data
  obtain ⟨awaited, -, same, -⟩ := trackedBy_awaits (Tracking.new talking) 0
  have run : Run (fun tracking event after => tracking.Step .sample event after ∧
      tracking.Careful .sample event) (Tracking.new talking)
        [.transmit 1 (ivOf 0) 0 (.filled 9) [9], .record 1 (itemOf 0), .proof (peerProof 0)]
          final := by
    refine .next ⟨transmit_step (.inl rfl) rfl rfl, fun _ _ _ _ => ?_⟩
      (.next ⟨record_step _ _, ?_⟩ (.next ⟨proved, fun pending found => ?_, fun item member => ?_⟩
        (.done final)))
    · exact List.not_mem_nil
    · show (TransportHandler.prepare _ _ _).2.pendingProofs.lookup _ = none
      rw [TransportHandler.prepare_frame]
      rfl
    · obtain rfl := Option.some.inj (awaited.symm.trans found)
      exact peerProof_proves 0 ⟨same.inLinks, same.outLink, same.outLinksByLinkId⟩
    · -- Nothing is left that was sent and not tracked.
      have empty : (trackedBy (Tracking.new talking) 0).sending = [] := by
        simp [trackedBy, sentBy, Tracking.new]
      rw [empty] at member
      cases member
  refine ⟨_, final, run, ?_, ?_, receipts_faithful_of_careful run⟩
  · rw [receipts, returned]
    rfl
  · rw [returned]
    rfl

/--
Of two packets sent over one link only the last is awaited: the proof of the first gives the second
its receipt. A proof without a signature gives one as well.
-/
theorem unproven_receipt_given :
    (∃ events final, Run (Tracking.Step .sample) (Tracking.new talking) events final ∧
      final.returned = [itemOf 0, itemOf 1] ∧
      final.handler.receipts.map (·.packetHash) = [(itemOf 1).packetHash] ∧
      final.ProvenSince .sample (itemOf 0) ∧ ¬ final.Faithful .sample) ∧
    ∃ events final, Run (Tracking.Step .sample) (Tracking.new talking) events final ∧
      final.handler.receipts.map (·.packetHash) = [(itemOf 0).packetHash] ∧
      final.proofs.map (·.2.packet.data) = [[]] ∧ ¬ final.Faithful .sample := by
  have different : (packetOf 1).hash ≠ (packetOf 0).hash := by decide +kernel
  constructor
  · let once := trackedBy (Tracking.new talking) 0
    obtain ⟨-, kept, links, unknown⟩ := trackedBy_awaits (Tracking.new talking) 0
    obtain ⟨-, -, again, unmet⟩ := trackedBy_awaits once 1
    obtain ⟨final, proved, receipts, proofs, returned⟩ := proof_step once 1
      (peerProof 0).packet.data
    have same : TransportHandler.SameLinks talking (trackedBy once 1).handler :=
      TransportHandler.SameLinks.trans links again
    refine ⟨_, final, .next (transmit_step (.inl rfl) rfl rfl) (.next (record_step _ _)
      (.next (transmit_step (.inr rfl) ?_ rfl) (.next (record_step _ _) (.next proved
        (.done final))))), returned, ?_, ?_, fun faithful => ?_⟩
    · rw [links.outLink]
      rfl
    · rw [receipts, kept]
      rfl
    · refine ⟨((trackedBy once 1).handler, peerProof 0), ?_, rfl, peerProof_proves 0 same⟩
      rw [proofs]
      exact List.mem_singleton_self _
    · -- The only proof is one of the first packet.
      obtain ⟨seen, member, proves⟩ := faithful.sound ⟨(packetOf 1).hash, .filled 9, ⟨none, none⟩⟩
        (by rw [receipts]; exact List.mem_append_right _ (List.mem_singleton_self _))
      rw [proofs] at member
      obtain rfl := List.mem_singleton.mp member
      exact different (peerProof_proves_only (unmet.trans unknown) proves)
  · obtain ⟨final, proved, receipts, proofs, -⟩ := proof_step (Tracking.new talking) 0 []
    refine ⟨_, final, .next (transmit_step (.inl rfl) rfl rfl) (.next (record_step _ _)
      (.next proved (.done final))), by rw [receipts]; rfl, by rw [proofs]; rfl, fun faithful => ?_⟩
    obtain ⟨seen, member, proves⟩ := faithful.sound ⟨(packetOf 0).hash, .filled 9, ⟨none, none⟩⟩
      (by rw [receipts]; exact List.mem_append_right _ (List.mem_singleton_self _))
    rw [proofs] at member
    obtain rfl := List.mem_singleton.mp member
    exact unsigned_proves_nothing proves

end Reticulum
