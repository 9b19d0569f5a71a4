import ReticulumSdk.Transport.Dispatch
import ReticulumSdk.Transport.LinkMtu

/-! The two ends of a link agree on its size, however often it is asked for and by whatever ways. -/

namespace Reticulum

/-- A link request that reaches a node, with what its handling reads from outside. -/
structure RequestArrival where
  request : Packet
  iface : AddressHash
  secret : LinkSecret
  now : Instant

/-- What happens at a node that is asked for links: a request with what is sent for it, or anything else. -/
inductive ResponderEvent where
  | asked (arrival : RequestArrival) (pending : List TxMessage)
  | other

namespace TransportHandler

/-- The in-links that are left are those there were, with their addresses and sizes. -/
def KeepsSizes (handler after : TransportHandler) : Prop :=
  ∀ key link, after.inLinks.lookup key = some link → ∃ earlier,
    handler.inLinks.lookup key = some earlier ∧ link.id = earlier.id ∧ link.mtu = earlier.mtu

/-- One event at such a node. Only requests make in-links, and nothing else changes their sizes. -/
def ResponderStep (crates : Crates) (handler : TransportHandler) (event : ResponderEvent)
    (after : TransportHandler) : Prop :=
  match event with
  | .asked arrival pending => arrival.request.header.packetType = .linkRequest ∧
      handler.handleLinkRequest crates arrival.secret arrival.now arrival.request arrival.iface =
        (after, pending)
  | .other => handler.KeepsSizes after

/-- A link is not replaced: it is open when it is asked for again, and nothing else removes it. -/
def Undisturbed (linkId : AddressHash) (handler : TransportHandler) (event : ResponderEvent)
    (after : TransportHandler) : Prop :=
  match event with
  | .asked arrival _ => arrival.request.linkId = linkId →
      ∀ link, handler.inLinks.lookup linkId = some link → link.status ≠ .closed
  | .other => ∀ link, handler.inLinks.lookup linkId = some link →
      ∃ later, after.inLinks.lookup linkId = some later

/-- Every in-link is kept under its own address, and its size fits the signalling bytes. -/
def SizedById (handler : TransportHandler) : Prop :=
  ∀ key link, handler.inLinks.lookup key = some link → link.id = key ∧ link.mtu < 2 ^ 21

/-- What a link request does to the in-links of a node, and what is sent for it. -/
inductive RequestEffect (handler : TransportHandler) (linkId : AddressHash)
    (after : TransportHandler) (pending : List TxMessage) : Prop where
  | passed (same : after.inLinks = handler.inLinks)
      (unproven : ∀ message ∈ pending, message.packet.header.packetType ≠ .proof)
  | proven (link : LocalLink) (txType : TxMessageType)
      (links : after.inLinks = handler.inLinks.insert linkId link)
      (sent : pending = [⟨txType, link.provePacket⟩])
      (origin : (∃ existing, handler.inLinks.lookup linkId = some existing ∧
          existing.status ≠ .closed ∧ link.id = existing.id ∧ link.mtu = existing.mtu) ∨
        ((∀ existing, handler.inLinks.lookup linkId = some existing → existing.status = .closed) ∧
          link.id = linkId ∧ link.mtu < 2 ^ 21))

variable {crates : Crates} {handler after : TransportHandler} {packet : Packet} {iface : AddressHash}
  {pending : List TxMessage} {secret : LinkSecret} {now : Instant}

/-- A proof is built from the link as it is proven, which keeps its address and its size. -/
private theorem prove_keeps (link : LocalLink) :
    link.prove.2 = link.prove.1.provePacket ∧ link.prove.1.id = link.id ∧
      link.prove.1.mtu = link.mtu := by
  unfold LocalLink.prove
  split <;> exact ⟨rfl, rfl, rfl⟩

/-- Preparing the proof of a link leaves the in-links, and the proof, as they are. -/
private theorem prepare_prove (handler : TransportHandler) (now : Instant) (link : LocalLink) :
    (handler.prepare now link.prove.2).2.inLinks = handler.inLinks ∧ ∃ txType,
      (handler.prepare now link.prove.2).1 = ⟨txType, link.prove.1.provePacket⟩ := by
  -- The proof is a packet for a link, so preparing it leaves it and the in-links alone.
  obtain ⟨proof, -, -⟩ := prove_keeps link
  have sent := (prepare_link handler now
    (show link.prove.2.header.destinationType = .link by rw [proof]; rfl)).1
  refine ⟨congrArg (·.inLinks) (prepare_frame handler now link.prove.2),
    (handler.prepare now link.prove.2).1.txType, ?_⟩
  rw [← proof]
  exact congrArg (TxMessage.mk _) sent

/-- A node that is asked for a new link proves it with the size the request came with. -/
private theorem acceptLinkRequest_effect {destination : SingleInputDestination}
    (gone : ∀ existing, handler.inLinks.lookup packet.linkId = some existing →
      existing.status = .closed)
    (handled : handler.acceptLinkRequest crates secret now packet destination iface =
      (after, pending)) : RequestEffect handler packet.linkId after pending := by
  -- The new link takes its identifier and unit from the request, and its proof is the one message.
  unfold acceptLinkRequest at handled
  split at handled
  · obtain ⟨rfl, rfl⟩ := Prod.mk.inj handled
    exact .passed rfl (by simp)
  · rename_i link created
    obtain ⟨id, small, -⟩ := LocalLink.newFromRequest_ok created
    dsimp only at handled
    generalize same : { link with
      attachedInterface := some iface
      provesMessages := handler.config.proveLinkMessages } = bound at handled
    have boundId : bound.id = packet.linkId := by rw [← same]; exact id
    have boundMtu : bound.mtu < 2 ^ 21 := by rw [← same]; exact small
    obtain ⟨rfl, rfl⟩ := Prod.mk.inj handled
    obtain ⟨-, sameId, sameMtu⟩ := prove_keeps bound
    obtain ⟨kept, txType, sent⟩ := prepare_prove handler now bound
    refine .proven bound.prove.1 txType ?_ (congrArg ([·]) sent)
      (.inr ⟨gone, sameId.trans boundId, by rw [sameMtu]; exact boundMtu⟩)
    dsimp only
    rw [kept, sameId, boundId]

/-- A node on the way leaves its own links alone, and forwards a request as a request. -/
private theorem intermediate_passes (handler : TransportHandler) (now : Instant)
    (receivedFrom nextHopIface nextHopTransport : AddressHash) (remainingHops : UInt8)
    (packet : Packet) :
    let handled := handler.handleLinkRequestAsIntermediate now receivedFrom nextHopIface
      nextHopTransport remainingHops packet
    handled.1.inLinks = handler.inLinks ∧
      ∀ message ∈ handled.2, message.packet.header.packetType = packet.header.packetType := by
  -- A forwarded request keeps its packet type, and no link is made on the way.
  dsimp only
  unfold handleLinkRequestAsIntermediate
  split
  · exact ⟨rfl, by simp⟩
  · split
    · exact ⟨rfl, by simp⟩
    · rename_i table _ _
      refine ⟨rfl, fun message member => ?_⟩
      obtain rfl := List.mem_singleton.mp member
      obtain ⟨data, clamped, -⟩ := requestFor_keeps { handler with linkTable := table } packet
        receivedFrom (some nextHopIface)
      dsimp only
      rw [clamped]
      unfold restamp
      split <;> rfl

/-- Every link request has one of the effects. -/
theorem handleLinkRequest_effect (asked : packet.header.packetType = .linkRequest)
    (handled : handler.handleLinkRequest crates secret now packet iface = (after, pending)) :
    RequestEffect handler packet.linkId after pending := by
  -- An open link proves itself again; a closed or absent one is made anew; other requests are forwarded.
  have clampedId : (handler.requestFor packet iface none).linkId = packet.linkId := requestFor_linkId
  unfold handleLinkRequest at handled
  split at handled
  · rename_i destination own
    unfold handleLinkRequestAsDestination at handled
    dsimp only at handled
    split at handled
    · split at handled
      · rename_i existing found
        split at handled
        · rename_i opened
          obtain ⟨rfl, rfl⟩ := Prod.mk.inj handled
          obtain ⟨-, sameId, sameMtu⟩ := prove_keeps existing
          obtain ⟨kept, txType, sent⟩ := prepare_prove handler now existing
          rw [clampedId] at found
          refine .proven (existing.prove.1.markActivity now) txType ?_ (congrArg ([·]) sent)
            (.inl ⟨existing, found, opened, sameId, sameMtu⟩)
          dsimp only
          rw [kept, clampedId]
        · rename_i shut
          rw [← clampedId]
          refine acceptLinkRequest_effect (fun other here => ?_) handled
          rw [found] at here
          exact Option.some.inj here ▸ not_not.mp shut
      · rename_i absent
        rw [← clampedId]
        refine acceptLinkRequest_effect (fun other here => ?_) handled
        rw [absent] at here
        cases here
    · obtain ⟨rfl, rfl⟩ := Prod.mk.inj handled
      exact .passed rfl (by simp)
  · split at handled
    · rename_i nextHop nextIface pathHops route
      obtain ⟨links, forwards⟩ := intermediate_passes handler now iface nextIface nextHop
        (if pathHops = 0 then 0 else pathHops - 1) packet
      dsimp only at handled
      rw [handled] at links forwards
      exact .passed links fun message member proof => by
        rw [forwards message member, asked] at proof
        cases proof
    · obtain ⟨rfl, rfl⟩ := Prod.mk.inj handled
      exact .passed rfl (by simp)

/-- Every event keeps the in-links under their own addresses, with sizes that can be signalled. -/
private theorem responderStep_sized {event : ResponderEvent} (sized : handler.SizedById)
    (step : handler.ResponderStep crates event after) : after.SizedById := by
  -- A request touches the link it names and no other.
  cases event with
  | other =>
    intro key link found
    obtain ⟨earlier, before, id, mtu⟩ := step key link found
    obtain ⟨sameKey, small⟩ := sized key earlier before
    exact ⟨id.trans sameKey, mtu ▸ small⟩
  | asked arrival pending =>
    cases handleLinkRequest_effect step.1 step.2 with
    | passed same _ =>
      intro key link found
      exact sized key link (same ▸ found)
    | proven link txType links _ origin =>
      intro key held found
      rw [links] at found
      by_cases here : key = arrival.request.linkId
      · subst here
        rw [AList.lookup_insert] at found
        rw [← Option.some.inj found]
        rcases origin with ⟨existing, before, -, id, mtu⟩ | ⟨-, id, small⟩
        · obtain ⟨sameKey, small⟩ := sized _ existing before
          exact ⟨id.trans sameKey, mtu ▸ small⟩
        · exact ⟨id, small⟩
      · rw [AList.lookup_insert_ne here] at found
        exact sized key held found

/-- A link that is not replaced keeps its size. -/
private theorem responderStep_size {event : ResponderEvent} {linkId : AddressHash} {link : LocalLink}
    (found : handler.inLinks.lookup linkId = some link)
    (step : handler.ResponderStep crates event after)
    (undisturbed : handler.Undisturbed linkId event after) :
    ∃ later, after.inLinks.lookup linkId = some later ∧ later.mtu = link.mtu := by
  cases event with
  | other =>
    obtain ⟨later, here⟩ := undisturbed link found
    obtain ⟨earlier, before, -, mtu⟩ := step linkId later here
    rw [found] at before
    exact ⟨later, here, by rw [mtu, ← Option.some.inj before]⟩
  | asked arrival pending =>
    cases handleLinkRequest_effect step.1 step.2 with
    | passed same _ => exact ⟨link, same ▸ found, rfl⟩
    | proven proved txType links _ origin =>
      rw [links]
      by_cases here : linkId = arrival.request.linkId
      · subst here
        refine ⟨proved, AList.lookup_insert _, ?_⟩
        rcases origin with ⟨existing, before, -, -, mtu⟩ | ⟨gone, -, -⟩
        · rw [found] at before
          rw [mtu, ← Option.some.inj before]
        · -- It was open, so no other link has taken its place.
          exact absurd (gone link found) (undisturbed rfl link found)
      · exact ⟨link, by rw [AList.lookup_insert_ne here, found], rfl⟩

/-- The data of links is such an event. -/
theorem handleLinkData_keepsSizes {around : Surroundings} (data : packet.header.packetType = .data)
    (handled : handler.handleLinkData crates around packet iface = .ok (after, pending)) :
    handler.KeepsSizes after := by
  obtain ⟨⟨first, answers⟩, answered, rest⟩ := bind_eq_ok.mp handled
  obtain ⟨second, passed, finished⟩ := bind_eq_ok.mp rest
  obtain ⟨rfl, -⟩ := Prod.mk.inj (Except.ok.inj finished)
  -- Only the first part gives the packet to an in-link.
  have links : (second.relayData around.now packet iface).1.inLinks = first.inLinks :=
    (relayData_sameLinks second around.now packet iface).inLinks.trans
      (dataToOutLink_links passed).1
  intro key link held
  have found : first.inLinks.lookup key = some link :=
    (congrArg (AList.lookup key) links).symm.trans held
  rcases dataToInLink_inLinks answered with same | ⟨earlier, result, linkAfter, before, called, written⟩
  · exact ⟨link, same ▸ found, rfl, rfl⟩
  · rw [written] at found
    by_cases here : key = packet.destination
    · subst here
      rw [AList.lookup_insert] at found
      obtain rfl := Option.some.inj found
      have quiet : result ≠ .activated := by
        rw [LocalLink.handlePacketFrom_fst data called, LocalLink.answer]
        split
        · simp
        · split
          · simp
          · split
            · simp
            · split <;> simp
      obtain ⟨id, mtu, -, -⟩ := (LocalLink.handlePacketFrom_effect called).keeps quiet
      exact ⟨earlier, before, id, mtu⟩
    · rw [AList.lookup_insert_ne here] at found
      exact ⟨link, found, rfl, rfl⟩

/-- So is a proof, which no in-link is given. -/
theorem handleProof_keepsSizes {around : Surroundings} {radio : Radio}
    (handled : handler.handleProof crates around packet radio iface = .ok (after, pending)) :
    handler.KeepsSizes after :=
  fun _ link found => ⟨link, (handleProof_links handled).1 ▸ found, rfl, rfl⟩

end TransportHandler

/-- The request of a link signals the size of its path. -/
theorem LocalLink.request_signalledMtu {link : LocalLink} {now : Instant} {pathMtu : Option Nat}
    (small : pathMtu.getD RETICULUM_MTU < 2 ^ 21) :
    (link.request now pathMtu).2.signalledMtu = some (link.request now pathMtu).1.mtu := by
  -- Both keys stand in front of the size.
  have keys : (link.identity.publicKey.bytes ++ link.identity.verifyingKey.bytes).length =
      PUBLIC_KEY_LENGTH * 2 := by
    rw [List.length_append, PublicKey.length_eq, PublicKey.length_eq]
    rfl
  have length : (link.request now pathMtu).2.data.length = PUBLIC_KEY_LENGTH * 2 + LINK_MTU_SIZE := by
    change (_ ++ linkSignallingBytes _ : Bytes).length = _
    rw [List.length_append, keys]
    rfl
  have signalled : (link.request now pathMtu).2.data.drop (PUBLIC_KEY_LENGTH * 2) =
      linkSignallingBytes (pathMtu.getD RETICULUM_MTU) := List.drop_left' keys
  rw [Packet.signalledMtu, if_pos length, signalled,
    mtuFromSignallingBytes_linkSignallingBytes small]
  rfl

/-- A link that a proof activates takes the size the proof was built with. -/
theorem LocalLink.activated_mtu {crates : Crates} {responder initiator activated : LocalLink}
    {proof : Packet} {iface : AddressHash} {now : Instant} (small : responder.mtu < 2 ^ 21)
    (carried : proof.data = responder.provePacket.data)
    (accepted : initiator.handlePacketFrom crates now proof true iface = .ok (.activated, activated)) :
    activated.mtu = responder.mtu := by
  obtain ⟨identity, confirmedMtu, valid, mtu⟩ : ∃ identity confirmedMtu,
      validateProofPacket crates.curves initiator.destination initiator.id proof =
        .ok (identity, confirmedMtu) ∧ activated.mtu = confirmedMtu := by
    generalize same : LinkHandleResult.activated = result at accepted
    cases handlePacketFrom_effect accepted with
    | rejected wrong => cases same
    | noted accepts useless unproven => cases same
    | data _ _ accepts here context quiet effect => exact absurd same.symm quiet.1
    | proven hash accepts here proof context active => cases same
    | activated identity confirmedMtu _ _ _ _ _ valid => exact ⟨identity, confirmedMtu, valid, rfl⟩
  -- The size stands behind the signature and the key.
  have length : proof.data.length = MTU_PROOF_LEN := by
    rw [carried, provePacket_length]
  have signalled : proof.data.drop (SIGNATURE_LENGTH + PUBLIC_KEY_LENGTH) =
      linkSignallingBytes responder.mtu := by
    rw [carried, provePacket_signalled]
  unfold validateProofPacket at valid
  simp only [length, or_true, dif_pos, ge_iff_le, le_refl, true_and, if_true, signalled] at valid
  split at valid
  · cases valid
  · obtain ⟨peer, -, rest⟩ := bind_eq_ok.mp valid
    split at rest
    · obtain ⟨-, rfl⟩ := Prod.mk.inj (Except.ok.inj rest)
      rw [mtu, mtuFromSignallingBytes_linkSignallingBytes small]
    · cases rest

open TransportHandler in
/--
The address of a requested link is the same all the way, the size its request signals never grows and
is carried by every interface known on the way, and an initiator that accepts a proof of its
destination has the size of the link there, whichever requests reached it and by whatever ways.
-/
theorem link_size_agrees (crates : Crates) (link : LocalLink) (now : Instant) (pathMtu : Option Nat)
    (small : pathMtu.getD RETICULUM_MTU < 2 ^ 21) (route : List RequestHop) :
    let asking := (link.request now pathMtu).1
    let request := (link.request now pathMtu).2
    (request.signalledMtu = some asking.mtu ∧
      (∀ front back, route = front ++ back → (walk front request).linkId = asking.id ∧
        NoLarger (walk route request) (walk front request)) ∧
      ∀ hop ∈ route, ∀ known, hop.Carries known → ∀ mtu,
        (walk route request).signalledMtu = some mtu → mtu ≤ known) ∧
    ∀ (start middle after : TransportHandler) (before : List ResponderEvent)
      (arrival : RequestArrival) (pending : List TxMessage),
      start.inLinks = ∅ → Run (ResponderStep crates) start before middle →
      middle.ResponderStep crates (.asked arrival pending) after →
      ∀ message ∈ pending, message.packet.header.packetType = .proof →
        message.packet.destination = asking.id →
      ∀ (initiator activated : LocalLink) (proof : Packet) (iface : AddressHash) (later : Instant),
        SameMessage message.packet proof →
        initiator.handlePacketFrom crates later proof true iface = .ok (.activated, activated) →
        (∃ responder, after.inLinks.lookup asking.id = some responder ∧
          activated.mtu = responder.mtu) ∧
        ∀ (events : List ResponderEvent) (final : TransportHandler),
          Run (fun handler event after => handler.ResponderStep crates event after ∧
            handler.Undisturbed asking.id event after) after events final →
          ∃ responder, final.inLinks.lookup asking.id = some responder ∧
            activated.mtu = responder.mtu := by
  intro asking request
  refine ⟨⟨?_, ?_, ?_⟩, ?_⟩
  · exact LocalLink.request_signalledMtu small
  · rintro front back rfl
    refine ⟨(walk_keeps front request).1, ?_⟩
    rw [walk, List.foldl_append]
    exact (walk_keeps back _).2
  · exact fun hop member known carries mtu signalled => walk_carried member carries signalled
  · rintro start middle after before arrival pending fresh run step message sent proves addressed
      initiator activated proof iface later same accepted
    -- A node's in-links are all made by requests, and so kept under their own addresses.
    have sized : middle.SizedById := by
      refine run.invariant (fun _ _ _ holds taken => responderStep_sized holds taken) ?_
      intro key held found
      rw [fresh] at found
      cases found
    cases handleLinkRequest_effect step.1 step.2 with
    | passed _ unproven => exact absurd proves (unproven message sent)
    | proven responder txType links alone origin =>
      rw [alone] at sent
      obtain rfl := List.mem_singleton.mp sent
      obtain ⟨id, fits⟩ : responder.id = arrival.request.linkId ∧ responder.mtu < 2 ^ 21 := by
        rcases origin with ⟨existing, held, -, id, mtu⟩ | ⟨-, id, fits⟩
        · obtain ⟨key, fits⟩ := sized _ existing held
          exact ⟨id.trans key, mtu ▸ fits⟩
        · exact ⟨id, fits⟩
      have key : arrival.request.linkId = asking.id := id.symm.trans addressed
      have found : after.inLinks.lookup asking.id = some responder := by
        rw [links, ← key]
        exact AList.lookup_insert _
      have agreed : activated.mtu = responder.mtu :=
        LocalLink.activated_mtu fits same.data accepted
      refine ⟨⟨responder, found, agreed⟩, fun events final rest => ?_⟩
      let Agrees : TransportHandler → Prop := fun handler => ∃ responder,
        handler.inLinks.lookup asking.id = some responder ∧ activated.mtu = responder.mtu
      have start : Agrees after := ⟨responder, found, agreed⟩
      change Agrees final
      refine rest.invariant (fun _ _ _ holds taken => ?_) start
      obtain ⟨held, here, size⟩ := holds
      obtain ⟨next, there, mtu⟩ := responderStep_size here taken.1 taken.2
      exact ⟨next, there, size.trans mtu.symm⟩

/-- A destination that takes links, for concrete runs. -/
private def takesLinks : SingleInputDestination :=
  ⟨⟨⟨.filled 0, .filled 0⟩, .filled 9⟩, true, Link.sampleSign⟩

/-- The node of that destination, whose interfaces carry packets of 600 bytes. -/
private def narrowNode : TransportHandler :=
  { TransportHandler.new ⟨.filled 0, false, true, true, false⟩ with
    singleInDestinations := AList.singleton (.filled 9) takesLinks
    hwMtu := fun _ => some 600 }

/-- A link to it, asked for with packets of 1000 bytes. -/
private def wideLink : LocalLink × Packet :=
  (LocalLink.new 0 .sample takesLinks.desc fun _ _ => false).request 0 (some 1000)

/-- A node between them, which does not discover sizes. -/
private def blindHop : RequestHop :=
  ⟨.new ⟨.filled 0, false, true, false, false⟩, .filled 1, .filled 2, 0, .filled 9⟩

/-- The request as it reaches the node of the destination. -/
private def narrowArrival : RequestArrival where
  request := (walk [blindHop] wideLink.2).received
  iface := .filled 3
  secret := ⟨.filled 4, fun _ _ => List.replicate DERIVED_KEY_LENGTH 0⟩
  now := 5

/-- A link of 1000 bytes to a destination behind 600 is one of 600 at both ends. -/
theorem link_size_agrees_narrow :
    ∃ after pending proof activated responder,
      narrowNode.ResponderStep .sample (.asked narrowArrival pending) after ∧
      wideLink.1.mtu = 1000 ∧
      wideLink.1.handlePacketFrom .sample 6 proof true (.filled 1) = .ok (.activated, activated) ∧
      after.inLinks.lookup wideLink.1.id = some responder ∧ responder.mtu = 600 ∧
      activated.mtu = responder.mtu := by
  obtain ⟨⟨-, same, -⟩, agrees⟩ := link_size_agrees .sample
    (.new 0 .sample takesLinks.desc fun _ _ => false) 0 (some 1000) (by decide) [blindHop]
  have key : narrowArrival.request.linkId = wideLink.1.id := (same [blindHop] [] rfl).1
  obtain ⟨after, responder, step, links, mtu, id, publicKey, verifyingKey, sign⟩ :
      ∃ after responder,
        narrowNode.ResponderStep .sample (.asked narrowArrival
          [⟨.broadcast none, responder.provePacket⟩]) after ∧
        after.inLinks = AList.insert narrowArrival.request.linkId responder ∅ ∧
        responder.mtu = 600 ∧ responder.id = narrowArrival.request.linkId ∧
        responder.identity.publicKey = .filled 4 ∧ responder.identity.verifyingKey = .filled 0 ∧
        responder.sign = Link.sampleSign :=
    ⟨_, _, ⟨rfl, rfl⟩, rfl, rfl, rfl, rfl, rfl, rfl⟩
  -- The destination's signature holds at the initiator, which has the same address for the link.
  have valid : validateProofPacket Crates.sample.curves wideLink.1.destination wideLink.1.id
      responder.provePacket = .ok (⟨responder.identity.publicKey, .filled 0⟩, responder.mtu) :=
    LocalLink.validateProofPacket_provePacket (by rw [mtu]; decide) rfl rfl
      (decide_eq_true (by rw [sign, id, key, publicKey, verifyingKey]; rfl))
  have accepted : wideLink.1.handlePacketFrom .sample 6 responder.provePacket true (.filled 1) = _ :=
    LocalLink.handlePacketFrom_activates rfl (id.trans key) rfl rfl rfl valid
  obtain ⟨⟨found, here, agreed⟩, -⟩ := agrees narrowNode narrowNode after [] narrowArrival _ rfl
    (.done _) step _ (List.mem_singleton_self _) rfl (id.trans key) wideLink.1 _ _ (.filled 1) 6
    (SameMessage.refl _) accepted
  have one : after.inLinks.lookup wideLink.1.id = some responder := by
    rw [links, key]
    exact AList.lookup_insert _
  obtain rfl := Option.some.inj (one.symm.trans here)
  exact ⟨after, _, _, _, responder, step, rfl, accepted, one, mtu, agreed⟩

end Reticulum
