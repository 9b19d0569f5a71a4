import ReticulumSdk.Link.Machine

/-! What a link answers to the packets it is given, and when they reach it. -/

namespace Reticulum.LocalLink

variable {crates : Crates} {link after : LocalLink} {now : Instant} {packet : Packet}
  {outLink : Bool} {iface : AddressHash} {result : LinkHandleResult}

/-- Whether a packet is a message for this link: data it decrypts, or an envelope it can take. -/
def receives (crates : Crates) (link : LocalLink) (packet : Packet) : Bool :=
  match (link.decryptIntoOwned crates packet.data).1 with
  | .ok plainText =>
    packet.context = .none ∨ (packet.context = .channel ∧
      (link.channelTx.isSome ∨ (Link.ChannelEnvelope.unpack plainText).toBool))
  | .error _ => false

/-- What a data packet makes a link answer. -/
def answer (crates : Crates) (link : LocalLink) (packet : Packet) : LinkHandleResult :=
  if link.receives crates packet then .messageReceived (link.proofOf packet)
  else if packet.context = .keepAlive ∧ packet.data.head? = some KEEP_ALIVE_REQUEST then .keepAlive
  else .none

/-- A payload used without an answer gives none. -/
private theorem withPayload_none {use : LocalLink → Bytes → LinkHandleResult × LocalLink}
    (silent : ∀ link plainText, (use link plainText).1 = .none) :
    (link.withPayload crates packet use).1 = .none := by
  unfold withPayload
  split
  · exact silent _ _
  · rfl

/-- Resource packets are not answered. -/
theorem handleResourcePacket_fst : (link.handleResourcePacket crates now packet).1 = .none := by
  unfold handleResourcePacket
  split
  · rfl
  · rfl
  all_goals first | exact withPayload_none fun _ _ => rfl | rfl

/-- Decrypting only grows a buffer, which no proof depends on. -/
@[simp] private theorem proofOf_decryptIntoOwned (text : Bytes) :
    (link.decryptIntoOwned crates text).2.proofOf packet = link.proofOf packet := rfl

@[simp] private theorem channelTx_decryptIntoOwned (text : Bytes) :
    (link.decryptIntoOwned crates text).2.channelTx = link.channelTx := rfl

/-- Messages are answered when they decrypt. -/
private theorem handleMessage_answer (plain : packet.context = .none) :
    (link.withPayload crates packet fun link plainText =>
      link.handleMessage now packet plainText).1 = link.answer crates packet := by
  -- Decrypting succeeds on both sides or on neither.
  unfold withPayload
  split <;> rename_i decrypted
  · rename_i plainText opened
    obtain rfl : (link.decryptIntoOwned crates packet.data).2 = opened := congrArg Prod.snd decrypted
    simp [answer, receives, congrArg Prod.fst decrypted, plain, handleMessage]
  · simp [answer, receives, decrypted, plain]

/-- Envelopes are answered when they decrypt and the channel takes them. -/
private theorem handleChannel_answer (channel : packet.context = .channel) :
    (link.withPayload crates packet fun link plainText =>
      link.handleChannel now packet plainText).1 = link.answer crates packet := by
  -- Decrypting leaves the outgoing half of the channel alone, so both sides look at the same
  -- `channelTx`.
  unfold withPayload
  split <;> rename_i decrypted
  · rename_i plainText opened
    obtain rfl : (link.decryptIntoOwned crates packet.data).2 = opened := congrArg Prod.snd decrypted
    simp only [handleChannel, channelTx_decryptIntoOwned, answer, receives,
      congrArg Prod.fst decrypted, channel]
    cases link.channelTx with
    | some sent => simp
    | none => cases Link.ChannelEnvelope.unpack plainText <;> simp [Except.toBool]
  · simp [answer, receives, decrypted, channel]

/-- Keepalive requests are answered. -/
private theorem handleKeepAlive_answer (keepAlive : packet.context = .keepAlive) :
    (link.handleKeepAlive now packet).1 = link.answer crates packet := by
  -- A keepalive is not decrypted, so only its first byte and the link's role decide the answer.
  have plain : link.receives crates packet = false := by
    unfold receives
    split <;> simp [keepAlive]
  unfold handleKeepAlive
  split <;> rename_i first
  · split
    · rename_i request
      simp [answer, plain, keepAlive, first, request]
    · rename_i other
      split <;> simp [answer, plain, keepAlive, first, other]
  · simp [answer, plain, first]

/-- Packets of the other contexts are never answered. -/
private theorem answer_none (plain : packet.context ≠ .none) (channel : packet.context ≠ .channel)
    (keepAlive : packet.context ≠ .keepAlive) : link.answer crates packet = .none := by
  unfold answer receives
  cases (link.decryptIntoOwned crates packet.data).1 <;> simp [plain, channel, keepAlive]

/-- The result of a call that finished. -/
private theorem fst_of_ok {pair : LinkHandleResult × LocalLink}
    (handled : (.ok pair : Outcome (LinkHandleResult × LocalLink)) = .ok (result, after)) :
    result = pair.1 := by
  rw [Except.ok.inj handled]

/-- A round-trip report is not answered. -/
private theorem handleRtt_fst (handled : link.handleRtt crates packet = .ok (result, after)) :
    result = .none := by
  -- Whatever the payload says, nothing is answered.
  unfold handleRtt at handled
  split at handled
  · exact fst_of_ok handled
  · split at handled
    · exact fst_of_ok handled
    · obtain ⟨rtt, -, finished⟩ := bind_eq_ok.mp handled
      exact fst_of_ok finished

/-- Data packets other than messages, envelopes and keepalives are not answered. -/
private theorem handleDataPacket_silent (plain : packet.context ≠ .none)
    (channel : packet.context ≠ .channel) (keepAlive : packet.context ≠ .keepAlive)
    (handled : link.handleDataPacket crates now packet outLink = .ok (result, after)) :
    result = .none := by
  -- Message, channel and keepalive are the contexts that answer; every other handler returns nothing.
  unfold handleDataPacket at handled
  split at handled <;> rename_i context
  · exact absurd context plain
  · split at handled
    · exact fst_of_ok handled
    · refine (fst_of_ok handled).trans (withPayload_none fun link plainText => ?_)
      unfold handleIdentify
      split <;> rfl
  · refine (fst_of_ok handled).trans (withPayload_none fun link plainText => ?_)
    unfold handleRequest
    split <;> rfl
  · refine (fst_of_ok handled).trans (withPayload_none fun link plainText => ?_)
    unfold handleResponse
    split <;> rfl
  · exact absurd context channel
  iterate 7 exact (fst_of_ok handled).trans handleResourcePacket_fst
  · exact absurd context keepAlive
  · split at handled
    · exact fst_of_ok handled
    · exact handleRtt_fst handled
  · exact (fst_of_ok handled).trans (withPayload_none fun _ _ => rfl)
  · exact fst_of_ok handled

/-- A data packet is answered as its message, its keepalive or not at all. -/
theorem handleDataPacket_fst (handled : link.handleDataPacket crates now packet outLink =
      .ok (result, after)) : result = link.answer crates packet := by
  -- The three contexts that answer are taken one by one, and the others are silent.
  by_cases plain : packet.context = .none
  · simp only [handleDataPacket, plain] at handled
    exact (fst_of_ok handled).trans (handleMessage_answer plain)
  by_cases channel : packet.context = .channel
  · simp only [handleDataPacket, channel] at handled
    exact (fst_of_ok handled).trans (handleChannel_answer channel)
  by_cases keepAlive : packet.context = .keepAlive
  · simp only [handleDataPacket, keepAlive] at handled
    exact (fst_of_ok handled).trans (handleKeepAlive_answer keepAlive)
  · rw [answer_none plain channel keepAlive]
    exact handleDataPacket_silent plain channel keepAlive handled

/-- A packet for another link is only noted. -/
theorem handlePacket_elsewhere (elsewhere : packet.destination ≠ link.id) :
    link.handlePacket crates now packet outLink = .ok (.none, link.note packet) :=
  if_pos elsewhere

/-- A packet for this link is noted and handled by its type. -/
theorem handlePacket_here (here : packet.destination = link.id) :
    link.handlePacket crates now packet outLink = match packet.header.packetType with
      | .data => (link.note packet).handleDataPacket crates now packet outLink
      | .proof =>
        if packet.context = .resourceProof then
          .ok ((link.note packet).handleResourcePacket crates now packet)
        else .ok ((link.note packet).handleProofPacket crates now packet)
      | _ => .ok (.none, link.note packet) :=
  if_neg (not_not.mpr here)

/-- What a link says to a data packet that arrives on an interface. -/
theorem handlePacketFrom_fst (data : packet.header.packetType = .data)
    (handled : link.handlePacketFrom crates now packet outLink iface = .ok (result, after)) :
    result = if ¬ link.acceptsInterface iface then .wrongInterface
      else if packet.destination ≠ link.id then .none else link.answer crates packet := by
  unfold handlePacketFrom at handled
  split at handled
  · rename_i rejected
    rw [if_pos rejected]
    exact fst_of_ok handled
  · rename_i accepted
    rw [if_neg accepted]
    -- Only proofs bind a link to an interface.
    have unbound : ¬ (outLink ∧ link.attachedInterface = none ∧ packet.header.packetType = .proof ∧
        packet.context = .linkRequestProof) := by
      simp [data]
    simp only [unbound, if_false, false_and] at handled
    obtain ⟨⟨answered, linkAfter⟩, called, finished⟩ := bind_eq_ok.mp handled
    rw [show result = answered from fst_of_ok finished]
    by_cases here : packet.destination = link.id
    · rw [handlePacket_here here] at called
      simp only [data] at called
      have answered := handleDataPacket_fst called
      rw [if_neg (not_not.mpr here)]
      exact answered
    · rw [handlePacket_elsewhere here] at called
      rw [if_pos here]
      exact fst_of_ok called

/-- Whether a data packet that arrives on an interface is a message the link answers with a proof. -/
def answersWithProof (crates : Crates) (link : LocalLink) (packet : Packet) (iface : AddressHash) :
    Bool :=
  link.acceptsInterface iface ∧ packet.destination = link.id ∧ link.receives crates packet ∧
    link.provesMessages

/-- A link's proof of a data packet is the message proof of its hash. -/
theorem handlePacketFrom_proof {proof : Packet} (data : packet.header.packetType = .data)
    (handled : link.handlePacketFrom crates now packet outLink iface =
      .ok (.messageReceived (some proof), after)) :
    link.answersWithProof crates packet iface = true ∧ proof = link.messageProof packet.hash := by
  -- A proof is answered only where the packet was accepted, was addressed here and was received.
  have said := handlePacketFrom_fst data handled
  split at said
  · cases said
  · rename_i accepted
    split at said
    · cases said
    · rename_i here
      unfold answer at said
      split at said
      · rename_i received
        have proves := LinkHandleResult.messageReceived.inj said
        unfold proofOf at proves
        split at proves
        · rename_i proving
          exact ⟨by simp [answersWithProof, not_not.mp accepted, not_not.mp here, received, proving],
            Option.some.inj proves⟩
        · cases proves
      · split at said <;> cases said

/-- A link that answers with a proof returns it. -/
theorem handlePacketFrom_of_answersWithProof (data : packet.header.packetType = .data)
    (answers : link.answersWithProof crates packet iface = true)
    (handled : link.handlePacketFrom crates now packet outLink iface = .ok (result, after)) :
    result = .messageReceived (some (link.messageProof packet.hash)) := by
  simp only [answersWithProof, decide_eq_true_eq] at answers
  obtain ⟨accepts, here, receives, proves⟩ := answers
  rw [handlePacketFrom_fst data handled]
  simp [accepts, here, answer, receives, proofOf, proves]

/-- Only a keepalive request is answered as one. -/
theorem handlePacketFrom_keepAlive (data : packet.header.packetType = .data)
    (handled : link.handlePacketFrom crates now packet outLink iface = .ok (.keepAlive, after)) :
    packet.data.head? = some KEEP_ALIVE_REQUEST := by
  -- Of all answers only the one to a request byte is a keepalive.
  have said := handlePacketFrom_fst data handled
  split at said
  · cases said
  · split at said
    · cases said
    · unfold answer at said
      split at said
      · cases said
      · split at said
        · rename_i request
          exact request.2
        · cases said

/-- The second part of the result of a call that finished. -/
private theorem snd_of_ok {pair : LinkHandleResult × LocalLink}
    (handled : (.ok pair : Outcome (LinkHandleResult × LocalLink)) = .ok (result, after)) :
    after = pair.2 := by
  rw [Except.ok.inj handled]

/-- Envelopes are posted without touching what was noted. -/
private theorem handleChannelEnvelope_handled (envelope : Link.ChannelEnvelope) :
    (link.handleChannelEnvelope now envelope).handled = link.handled := by
  -- Posting events records no packet.
  have posting : ∀ (envelopes : List Link.ChannelEnvelope) (link : LocalLink),
      (envelopes.foldl (fun link envelope => link.postEvent (.channel envelope)) link).handled =
        link.handled := by
    intro envelopes
    induction envelopes with
    | nil => exact fun _ => rfl
    | cons envelope rest ih => exact fun link => ih (link.postEvent (.channel envelope))
  exact posting _ _

/-- Decrypting touches nothing noted. -/
private theorem decryptIntoOwned_handled {text : Bytes} {plain : Except RnsError Bytes}
    {opened : LocalLink} (decrypted : link.decryptIntoOwned crates text = (plain, opened)) :
    opened.handled = link.handled := by
  obtain rfl : (link.decryptIntoOwned crates text).2 = opened := congrArg Prod.snd decrypted
  rfl

/-- Nor does the use of a payload, if each use does not. -/
private theorem withPayload_handled {use : LocalLink → Bytes → LinkHandleResult × LocalLink}
    (kept : ∀ link plainText, (use link plainText).2.handled = link.handled) :
    (link.withPayload crates packet use).2.handled = link.handled := by
  unfold withPayload
  split <;> rename_i decrypted
  · rw [kept, decryptIntoOwned_handled decrypted]
  · exact decryptIntoOwned_handled decrypted

/-- Nor does a channel. -/
private theorem handleChannel_handled (plainText : Bytes) :
    (link.handleChannel now packet plainText).2.handled = link.handled := by
  unfold handleChannel
  split
  · rfl
  · split
    · exact handleChannelEnvelope_handled _
    · rfl

/-- Nor does a resource packet. -/
theorem handleResourcePacket_handled :
    (link.handleResourcePacket crates now packet).2.handled = link.handled := by
  unfold handleResourcePacket
  split
  · rfl
  · rfl
  all_goals first | exact withPayload_handled fun _ _ => rfl | rfl

/-- Nor does a keepalive. -/
private theorem handleKeepAlive_handled :
    (link.handleKeepAlive now packet).2.handled = link.handled := by
  unfold handleKeepAlive
  split
  · split
    · rfl
    · split <;> rfl
  · rfl

/-- Nor does a round-trip report. -/
private theorem handleRtt_handled (handled : link.handleRtt crates packet = .ok (result, after)) :
    after.handled = link.handled := by
  -- The handler changes the round-trip time and the decryption buffer, never the record of packets.
  unfold handleRtt at handled
  split at handled <;> rename_i decrypted
  · rw [snd_of_ok handled, decryptIntoOwned_handled decrypted]
  · split at handled
    · rw [snd_of_ok handled, decryptIntoOwned_handled decrypted]
    · obtain ⟨rtt, -, finished⟩ := bind_eq_ok.mp handled
      have kept := decryptIntoOwned_handled decrypted
      rw [snd_of_ok finished]
      exact kept

/-- Nor does any data packet. -/
theorem handleDataPacket_handled
    (handled : link.handleDataPacket crates now packet outLink = .ok (result, after)) :
    after.handled = link.handled := by
  -- Every handler but the resource one works on a decrypted payload, and decrypting records nothing.
  have payload : ∀ {use : LocalLink → Bytes → LinkHandleResult × LocalLink},
      (∀ link plainText, (use link plainText).2.handled = link.handled) →
      (.ok (link.withPayload crates packet use) : Outcome (LinkHandleResult × LocalLink)) =
        .ok (result, after) → after.handled = link.handled := by
    intro use kept finished
    rw [snd_of_ok finished, withPayload_handled kept]
  -- The resource handler records nothing either.
  have resource : (.ok (link.handleResourcePacket crates now packet) :
      Outcome (LinkHandleResult × LocalLink)) = .ok (result, after) →
        after.handled = link.handled := by
    intro finished
    rw [snd_of_ok finished, handleResourcePacket_handled]
  unfold handleDataPacket at handled
  -- The contexts in the order of the source.
  split at handled
  · exact payload (fun _ _ => rfl) handled
  · split at handled
    · rw [snd_of_ok handled]
    · refine payload (fun link plainText => ?_) handled
      unfold handleIdentify
      split <;> rfl
  · refine payload (fun link plainText => ?_) handled
    unfold handleRequest
    split <;> rfl
  · refine payload (fun link plainText => ?_) handled
    unfold handleResponse
    split <;> rfl
  · exact payload (fun _ plainText => handleChannel_handled plainText) handled
  iterate 7 exact resource handled
  · rw [snd_of_ok handled, handleKeepAlive_handled]
  · split at handled
    · rw [snd_of_ok handled]
    · exact handleRtt_handled handled
  · refine payload (fun link plainText => ?_) handled
    unfold handleClose
    split <;> rfl
  · rw [snd_of_ok handled]

/-- Nor does a proof, and it is never answered as a message. -/
theorem handleProofPacket_handled :
    (link.handleProofPacket crates now packet).2.handled = link.handled ∧
      ∀ proof, (link.handleProofPacket crates now packet).1 ≠ .messageReceived proof := by
  -- A proof activates the link, posts its hash or is ignored; none of them is a received message.
  unfold handleProofPacket
  split <;> rename_i activated
  · unfold activateBy at activated
    split at activated
    · split at activated
      · obtain rfl := Option.some.inj activated
        exact ⟨rfl, by simp⟩
      · cases activated
    · cases activated
  · split
    · split <;> exact ⟨rfl, by simp⟩
    · exact ⟨rfl, by simp⟩

/-- Every packet `handle_packet` is called with is noted. -/
theorem handlePacket_handled
    (handled : link.handlePacket crates now packet outLink = .ok (result, after)) :
    after.handled = link.handled ++ [packet] := by
  -- The packet is recorded once, before its type is looked at.
  by_cases here : packet.destination = link.id
  · rw [handlePacket_here here] at handled
    split at handled
    · exact handleDataPacket_handled handled
    · split at handled
      · rw [snd_of_ok handled, handleResourcePacket_handled]
        rfl
      · rw [snd_of_ok handled, handleProofPacket_handled.1]
        rfl
    · rw [snd_of_ok handled]
      rfl
  · rw [handlePacket_elsewhere here] at handled
    rw [snd_of_ok handled]
    rfl

/-- So is every packet that arrives on an interface the link accepts, and no other. -/
theorem handlePacketFrom_handled
    (handled : link.handlePacketFrom crates now packet outLink iface = .ok (result, after)) :
    after.handled = if link.acceptsInterface iface then link.handled ++ [packet]
      else link.handled := by
  unfold handlePacketFrom at handled
  split at handled
  · rename_i rejected
    rw [snd_of_ok handled, if_neg rejected]
  · rename_i accepted
    rw [if_pos (not_not.mp accepted)]
    obtain ⟨⟨answered, linkAfter⟩, called, finished⟩ := bind_eq_ok.mp handled
    have noted := handlePacket_handled called
    -- Binding the link for the call changes only its interface.
    have bound : linkAfter.handled = link.handled ++ [packet] := by
      rw [noted]
      split <;> rfl
    dsimp only at finished
    split at finished <;>
    · rw [snd_of_ok finished]
      exact bound

/-- `handle_packet` answers no proof as a message. -/
private theorem handlePacket_of_proof {answer : Option Packet}
    (proof : packet.header.packetType = .proof)
    (handled : link.handlePacket crates now packet outLink = .ok (result, after)) :
    result ≠ .messageReceived answer := by
  -- Proofs of a resource and proofs of a link or message answer nothing to be proved.
  by_cases here : packet.destination = link.id
  · rw [handlePacket_here here] at handled
    simp only [proof] at handled
    split at handled
    · rw [fst_of_ok handled, handleResourcePacket_fst]
      simp
    · rw [fst_of_ok handled]
      exact handleProofPacket_handled.2 answer
  · rw [handlePacket_elsewhere here] at handled
    rw [fst_of_ok handled]
    simp

/-- No proof is answered as a message. -/
theorem handlePacketFrom_of_proof {answer : Option Packet}
    (proof : packet.header.packetType = .proof)
    (handled : link.handlePacketFrom crates now packet outLink iface = .ok (result, after)) :
    result ≠ .messageReceived answer := by
  -- The interface check and the tentative binding pass on what the link answered.
  unfold handlePacketFrom at handled
  split at handled
  · rw [fst_of_ok handled]
    simp
  · obtain ⟨⟨answered, linkAfter⟩, called, finished⟩ := bind_eq_ok.mp handled
    have silent : answered ≠ .messageReceived answer := handlePacket_of_proof proof called
    dsimp only at finished
    split at finished <;>
    · rw [fst_of_ok finished]
      exact silent

/-- A proof that is no link-request proof activates no link. -/
private theorem handleProofPacket_message (message : packet.context ≠ .linkRequestProof) :
    (link.handleProofPacket crates now packet).1 = .none := by
  -- Only the context of a link proof activates.
  unfold handleProofPacket activateBy
  rw [if_neg fun awaited => message awaited.2]
  dsimp only
  split
  · split <;> rfl
  · rfl

/-- It is always handled. -/
private theorem handlePacket_of_messageProof (proof : packet.header.packetType = .proof)
    (message : packet.context ≠ .linkRequestProof) :
    ∃ handled, link.handlePacket crates now packet outLink = .ok handled ∧ handled.1 = .none := by
  -- Neither kind of message proof answers or fails.
  by_cases here : packet.destination = link.id
  · rw [handlePacket_here here]
    simp only [proof]
    split
    · exact ⟨_, rfl, handleResourcePacket_fst⟩
    · exact ⟨_, rfl, handleProofPacket_message message⟩
  · exact ⟨_, handlePacket_elsewhere here, rfl⟩

/-- So it is when it arrives on some interface. -/
theorem handlePacketFrom_of_messageProof (proof : packet.header.packetType = .proof)
    (message : packet.context ≠ .linkRequestProof) :
    ∃ result linkAfter, link.handlePacketFrom crates now packet outLink iface =
      .ok (result, linkAfter) ∧ result ≠ .activated := by
  -- Without the link proof's context no binding is attempted and nothing can activate.
  have unbound : ¬ (outLink ∧ link.attachedInterface = none ∧ packet.header.packetType = .proof ∧
      packet.context = .linkRequestProof) := fun bound => message bound.2.2.2
  obtain ⟨handled, called, silent⟩ : ∃ handled, link.handlePacket crates now packet outLink =
      .ok handled ∧ handled.1 = .none := handlePacket_of_messageProof proof message
  unfold handlePacketFrom
  split
  · exact ⟨_, _, rfl, by simp⟩
  · simp only [unbound, if_false, false_and, called]
    exact ⟨handled.1, handled.2, rfl, by simp [silent]⟩

/-- A link takes packets from the interface it is bound to. -/
theorem acceptsInterface_of_bound (bound : link.attachedInterface = some iface) :
    link.acceptsInterface iface = true := by
  simp [acceptsInterface, bound]

end Reticulum.LocalLink
