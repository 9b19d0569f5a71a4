import ReticulumSdk.Base.Run
import ReticulumSdk.Transport.HandlerLaws
import ReticulumSdk.Transport.Receive

/-! How sent packets are tracked until their proofs arrive, and which proofs are proofs of them. -/

namespace Reticulum

/-- A packet that was sent over a link, with the number of proofs that had arrived before. -/
structure SentPacket where
  linkId : AddressHash
  packetHash : Hash
  destination : AddressHash
  since : Nat
  deriving DecidableEq

/--
A transport with the packets that running calls of `send_to_out_links` have sent and not yet
tracked. To speak about receipts, what those calls returned is kept, and every proof that was
handled, each with the transport as it was.
-/
structure Tracking where
  handler : TransportHandler
  sending : List SentPacket
  returned : List SentPacket
  proofs : List (TransportHandler × Arrival)

namespace TransportHandler

/-- `track_pending_proof`. -/
def trackPendingProof (handler : TransportHandler) (now : Instant) (packetHash : Hash)
    (destination : AddressHash) : TransportHandler :=
  { handler with pendingProofs := handler.pendingProofs.insert (.newFromHash packetHash) {
      originalPacketHash := packetHash
      destinationAddress := destination
      createdAt := now } }

/-- The first half of a round of `send_to_out_links`: an active link to the destination sends. -/
def sendOver (crates : Crates) (handler : TransportHandler) (now : Instant) (iv : Iv) (place : Nat)
    (destination : AddressHash) (payload : Bytes) : Option (AddressHash × Hash × TransportHandler) :=
  let link := handler.outLink place
  if link.destination.addressHash = destination ∧ link.status = .active then
    match link.dataPacket ((Fernet.ofDerivedKey crates.suite link.derivedKey).cipher iv) payload with
    | .ok packet => some (link.id, packet.hash, (handler.prepare now packet).2)
    | .error _ => none
  else none

/-- The second half: the packet is tracked under the address of the link. -/
def recordSent (handler : TransportHandler) (now : Instant) (linkId : AddressHash) (packetHash : Hash)
    (destination : AddressHash) : TransportHandler :=
  { handler with pendingProofs := handler.pendingProofs.insert linkId {
      originalPacketHash := packetHash
      destinationAddress := destination
      createdAt := now } }

/-- One round of `send_to_out_links` without interruption. -/
def sendRound (crates : Crates) (now : Instant) (ivs : Nat → Iv) (destination : AddressHash)
    (payload : Bytes) (sent : List Hash × TransportHandler) (place : Nat) :
    List Hash × TransportHandler :=
  match sent.2.sendOver crates now (ivs place) place destination payload with
  | some (linkId, packetHash, handler) =>
    (sent.1 ++ [packetHash], handler.recordSent now linkId packetHash destination)
  | none => sent

/-- `send_to_out_links` without interruption, with the hashes it returns. -/
def sendToOutLinks (crates : Crates) (handler : TransportHandler) (now : Instant) (ivs : Nat → Iv)
    (destination : AddressHash) (payload : Bytes) : List Hash × TransportHandler :=
  (handler.outLinks.entries.map (·.2)).foldl (sendRound crates now ivs destination payload)
    ([], handler)

/--
A received packet proves a tracked one: a link signs the packet's hash with its peer's key and takes
packets from that interface, or the destination does for a packet that was tracked directly.
-/
inductive Proves (crates : Crates) (handler : TransportHandler) (arrival : Arrival)
    (packetHash : Hash) (destination : AddressHash) : Prop where
  | overLink (link : LocalLink)
      (found : handler.outLinkById arrival.packet.destination = some link)
      (accepted : link.acceptsInterface arrival.iface = true)
      (verified : Link.validateMessageProof link.verifyPeer arrival.packet.data (some packetHash) =
        .ok packetHash)
  | direct (desc : DestinationDesc)
      (found : handler.singleOutDestinations.lookup destination = some desc)
      (addressed : arrival.packet.destination = .newFromHash packetHash)
      (verified : Link.validateMessageProof (crates.curves.verify desc.identity.verifyingKey)
        arrival.packet.data (some packetHash) = .ok packetHash)

end TransportHandler

/-- What happens to the tracked packets of a node. -/
inductive TrackingEvent where
  /-- A call of `send_to_out_links` sends over one link. -/
  | transmit (now : Instant) (iv : Iv) (place : Nat) (destination : AddressHash) (payload : Bytes)
  /-- It comes to track the packet. -/
  | record (now : Instant) (item : SentPacket)
  /-- A packet sent in another way is tracked. -/
  | track (now : Instant) (packetHash : Hash) (destination : AddressHash)
  /-- A proof is handled. -/
  | proof (arrival : Arrival)
  /-- Anything else, which does not touch the tracked packets and the receipts. -/
  | other

namespace Tracking

/-- A node that has tracked nothing yet. -/
def new (handler : TransportHandler) : Tracking where
  handler := { handler with pendingProofs := ∅, receipts := [] }
  sending := []
  returned := []
  proofs := []

/-- One event. -/
def Step (crates : Crates) (tracking : Tracking) (event : TrackingEvent) (after : Tracking) : Prop :=
  match event with
  | .transmit now iv place destination payload =>
    ∃ linkId packetHash next,
      tracking.handler.sendOver crates now iv place destination payload =
        some (linkId, packetHash, next) ∧
      after = { tracking with
        handler := next
        sending := tracking.sending ++ [⟨linkId, packetHash, destination, tracking.proofs.length⟩] }
  | .record now item =>
    item ∈ tracking.sending ∧ after = { tracking with
      handler := tracking.handler.recordSent now item.linkId item.packetHash item.destination
      sending := tracking.sending.erase item
      returned := tracking.returned ++ [item] }
  | .track now packetHash destination =>
    after = { tracking with
      handler := tracking.handler.trackPendingProof now packetHash destination }
  | .proof arrival =>
    arrival.packet.header.packetType = .proof ∧ ∃ next pending,
      tracking.handler.handleProof crates arrival.around arrival.packet arrival.radio arrival.iface =
        .ok (next, pending) ∧
      after = { tracking with
        handler := next
        proofs := tracking.proofs ++ [(tracking.handler, arrival)] }
  | .other =>
    ∃ next, next.pendingProofs = tracking.handler.pendingProofs ∧
      next.receipts = tracking.handler.receipts ∧ after = { tracking with handler := next }

end Tracking

namespace TransportHandler

variable {crates : Crates} {around : Surroundings} {handler after : TransportHandler}
  {packet : Packet} {iface : AddressHash} {pending : List TxMessage}

/-- The parts of a transport that hold its tracked packets and its receipts. -/
structure SameReceipts (handler after : TransportHandler) : Prop where
  pendingProofs : after.pendingProofs = handler.pendingProofs
  receipts : after.receipts = handler.receipts

/-- Sending over a link touches no receipt. -/
theorem sendOver_sameReceipts {now : Instant} {iv : Iv} {place : Nat} {destination linkId : AddressHash}
    {payload : Bytes} {packetHash : Hash}
    (sent : handler.sendOver crates now iv place destination payload =
      some (linkId, packetHash, after)) : SameReceipts handler after := by
  -- Sending prepares a packet, which changes the caches and the paths only.
  unfold sendOver at sent
  dsimp only at sent
  split at sent
  · split at sent
    · obtain ⟨-, rest⟩ := Prod.mk.inj (Option.some.inj sent)
      obtain ⟨-, rfl⟩ := Prod.mk.inj rest
      rw [prepare_frame]
      exact ⟨rfl, rfl⟩
    · cases sent
  · cases sent

/-- An active link to the destination sends a payload it can encrypt. -/
theorem sendOver_eq {now : Instant} {iv : Iv} {place : Nat} {payload : Bytes}
    (active : (handler.outLink place).status = .active)
    (built : (handler.outLink place).dataPacket
      ((Fernet.ofDerivedKey crates.suite (handler.outLink place).derivedKey).cipher iv) payload =
        .ok packet) :
    handler.sendOver crates now iv place (handler.outLink place).destination.addressHash payload =
      some ((handler.outLink place).id, packet.hash, (handler.prepare now packet).2) := by
  simp only [sendOver, active, and_self, if_true, built]

/-- A proof that is no link-request proof is always handled. -/
theorem handleProof_total {radio : Radio} (proof : packet.header.packetType = .proof)
    (message : packet.context ≠ .linkRequestProof) :
    ∃ next pending, handler.handleProof crates around packet radio iface = .ok (next, pending) := by
  -- Only an activation builds a further packet, which may fail; a message proof never activates.
  have total : ∃ first activation,
      handler.proofToOutLink crates around packet iface = .ok (first, activation) := by
    unfold proofToOutLink
    split
    · exact ⟨_, _, rfl⟩
    · rename_i place found
      obtain ⟨result, linkAfter, called, other⟩ := LocalLink.handlePacketFrom_of_messageProof
        proof message
      rw [called]
      cases result with
      | activated => exact absurd rfl other
      | none | wrongInterface | keepAlive | messageReceived => exact ⟨_, _, rfl⟩
  obtain ⟨first, activation, called⟩ := total
  unfold handleProof
  rw [called]
  exact ⟨_, _, rfl⟩

/-- What `handle_proof` does to the tracked packets: it gives at most one its receipt. -/
theorem handleProof_receipts {radio : Radio}
    (handled : handler.handleProof crates around packet radio iface = .ok (after, pending)) :
    SameReceipts (handler.takeReceipt packet radio) after := by
  obtain ⟨first, activation, called, ended, -⟩ := handleProof_ok handled
  rw [ended, reverseProof_frame, relayProof_frame]
  -- The receipt depends on the tracked packets alone, which no out-link touches.
  rw [proofToOutLink_frame called]
  unfold takeReceipt
  dsimp only
  split <;> exact ⟨rfl, rfl⟩

end TransportHandler

namespace Tracking

variable {crates : Crates} {now : Instant} {ivs : Nat → Iv} {destination : AddressHash}
  {payload : Bytes}

/-- Rounds over a list of links are a run, which returns the hashes the rounds add. -/
private theorem rounds_run (places : List Nat) (tracking : Tracking) (sent : List Hash) :
    ∃ events final, Run (Step crates) tracking events final ∧
      final.sending.Perm tracking.sending ∧ final.proofs = tracking.proofs ∧
      ∃ added, final.returned = tracking.returned ++ added ∧
        (sent ++ added.map (·.packetHash), final.handler) =
          places.foldl (TransportHandler.sendRound crates now ivs destination payload)
            (sent, tracking.handler) := by
  induction places generalizing tracking sent with
  | nil => exact ⟨[], tracking, .done tracking, .refl _, rfl, [], by simp, by simp⟩
  | cons place places ih =>
    rw [List.foldl_cons, TransportHandler.sendRound]
    cases sends : tracking.handler.sendOver crates now (ivs place) place destination payload with
    | none => simpa only [sends] using ih tracking sent
    | some round =>
      obtain ⟨linkId, packetHash, next⟩ := round
      -- The packet is sent, and the same call tracks it at once.
      let item : SentPacket := ⟨linkId, packetHash, destination, tracking.proofs.length⟩
      let middle : Tracking := { tracking with
        handler := next
        sending := tracking.sending ++ [item] }
      let recorded : Tracking := { middle with
        handler := next.recordSent now linkId packetHash destination
        sending := middle.sending.erase item
        returned := tracking.returned ++ [item] }
      obtain ⟨events, final, run, sending, proofs, added, returned, folded⟩ :=
        ih recorded (sent ++ [packetHash])
      refine ⟨.transmit now (ivs place) place destination payload :: .record now item :: events,
        final, .next ⟨linkId, packetHash, next, sends, rfl⟩ (.next ⟨?_, rfl⟩ run), ?_, proofs,
        item :: added, ?_, ?_⟩
      · exact List.mem_append_right _ (List.mem_singleton_self item)
      · have moved : middle.sending.Perm (item :: tracking.sending) :=
          List.perm_append_singleton item tracking.sending
        exact sending.trans ((moved.erase item).trans (by rw [List.erase_cons_head]))
      · rw [returned, List.append_assoc]
        rfl
      · rw [← folded, List.append_assoc]
        rfl

/--
An uninterrupted `send_to_out_links` is a run. It leaves nothing to be tracked, and what it returns
are the hashes of the packets it tracked.
-/
theorem sendToOutLinks_run (tracking : Tracking) :
    ∃ events final, Run (Step crates) tracking events final ∧
      final.sending.Perm tracking.sending ∧ final.proofs = tracking.proofs ∧
      ∃ added, final.returned = tracking.returned ++ added ∧
        (added.map (·.packetHash), final.handler) =
          tracking.handler.sendToOutLinks crates now ivs destination payload := by
  obtain ⟨events, final, run, sending, proofs, added, returned, folded⟩ :=
    rounds_run (tracking.handler.outLinks.entries.map (·.2)) tracking []
  exact ⟨events, final, run, sending, proofs, added, returned, folded⟩

end Tracking

end Reticulum
