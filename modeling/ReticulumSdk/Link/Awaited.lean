import ReticulumSdk.Link.ReorderLaws
import ReticulumSdk.Transport.LinkEnds

/-! The envelope a link waits for: when it is posted at once, and when it comes too late. -/

namespace Reticulum

namespace Link

/-- The gap in front of what is buffered has been open for too long. -/
def ChannelRx.stallExpired (rx : ChannelRx) (now : Instant) : Bool :=
  rx.channelRxStallSince.any fun since => decide (now.durationSince since ≥ CHANNEL_REORDER_TIMEOUT)

namespace Stream

variable {base : UInt16} {stream : Stream} {envelope : ChannelEnvelope}

/-- The awaited envelope arrives at the next position of the stream. -/
private theorem toRx_arrive_awaited (sound : stream.Sound base) (now : Instant)
    (awaited : envelope.sequence = sequenceAt base stream.next) :
    ((stream.toRx base).handleChannelEnvelope now envelope).posted =
      (stream.arrive CHANNEL_WINDOW_MAX (stream.stallExpired now) now
        (stream.next, envelope)).passed.map Prod.snd := by
  -- The number that is awaited is ahead of itself by nothing.
  have near : stream.next < stream.next + CHANNEL_SEQUENCE_MODULUS / 2 := Nat.lt_add_of_pos_right (by decide)
  rw [toRx_arrive sound.numbered.1 sound.ordered awaited (Nat.le_refl _) near]
  rfl

/-- It is posted at once, in front of what is buffered, unless the gap was given up before it was looked at. -/
theorem Sound.posts_awaited (sound : stream.Sound base) {now : Instant}
    (awaited : envelope.sequence = sequenceAt base stream.next)
    (open_ : stream.held = [] ∨ stream.stallExpired now = false) :
    ∃ behind, behind <+: (stream.toRx base).channelRxRing ∧
      ((stream.toRx base).handleChannelEnvelope now envelope).posted =
        (stream.toRx base).posted ++ envelope :: behind := by
  -- The stream of numbered envelopes passes on a front of what it held, and so does the ring.
  obtain ⟨behind, front, passed⟩ := @Reassembly.Ordered.arrive_awaited _ _ _ _ (stream.next, envelope)
    sound.ordered (by decide) now rfl _ open_
  refine ⟨behind.map Prod.snd, front.map Prod.snd, ?_⟩
  rw [toRx_arrive_awaited sound now awaited, passed, List.map_append, List.map_cons]
  rfl

/-- Where the gap was given up, everything that was buffered is posted, and it is not. -/
theorem Sound.drops_awaited (sound : stream.Sound base) {now : Instant}
    (awaited : envelope.sequence = sequenceAt base stream.next) (waiting : stream.held ≠ [])
    (expired : stream.stallExpired now = true) :
    ((stream.toRx base).handleChannelEnvelope now envelope).posted =
        (stream.toRx base).posted ++ (stream.toRx base).channelRxRing ∧
      ∀ other ∈ (stream.toRx base).channelRxRing, other.sequence ≠ envelope.sequence := by
  -- The stall passes on what was buffered, and the window moves past what was awaited.
  constructor
  · rw [toRx_arrive_awaited sound now awaited, expired, sound.ordered.arrive_late waiting now rfl,
      List.map_append]
    rfl
  · -- What is buffered lies ahead of the awaited position, inside the window.
    intro other member
    obtain ⟨item, held, rfl⟩ := List.mem_map.mp member
    have ahead := sound.ordered.ahead item held
    have inside := sound.ordered.inside item held
    unfold CHANNEL_WINDOW_MAX at inside
    rw [sound.numbered.1 item held, awaited]
    intro same
    have equal := (sequenceAt_inj (Nat.le_of_lt ahead) (Nat.le_refl _)
      (by unfold CHANNEL_SEQUENCE_MODULUS; omega)
      (Nat.lt_add_of_pos_right (by decide))).mp same
    omega

end Stream

end Link

open Link

namespace LocalLink

/-- The event that posts an envelope. -/
def channelEvent (link : LocalLink) (envelope : ChannelEnvelope) : LinkEventData where
  id := link.id
  addressHash := link.destination.addressHash
  iface := link.attachedInterface
  event := .channel envelope

variable {crates : Crates} {link after : LocalLink} {role : LinkRole} {call : LinkCall}
  {now : Instant} {packet : Packet} {outLink : Bool} {result : LinkHandleResult}

/-- A call reorders nothing, or handles one envelope. -/
def Reorders (link after : LocalLink) : Prop :=
  after.channelRx = link.channelRx ∨
    ∃ now envelope, after.channelRx = link.channelRx.handleChannelEnvelope now envelope

/-- The events of an envelope are those of the envelopes it lets through. -/
theorem handleChannelEnvelope_events (link : LocalLink) (now : Instant) (envelope : ChannelEnvelope) :
    (link.handleChannelEnvelope now envelope).channelRx =
        link.channelRx.handleChannelEnvelope now envelope ∧
      (link.handleChannelEnvelope now envelope).events = link.events ++
        ((link.channelRx.handleChannelEnvelope now envelope).posted.drop
          link.channelRx.posted.length).map link.channelEvent := by
  -- Posting an event changes nothing that the next one names.
  have posting : ∀ (envelopes : List ChannelEnvelope) (link : LocalLink),
      (envelopes.foldl (fun link envelope => link.postEvent (.channel envelope)) link).channelRx =
          link.channelRx ∧
        (envelopes.foldl (fun link envelope => link.postEvent (.channel envelope)) link).events =
          link.events ++ envelopes.map link.channelEvent := by
    intro envelopes
    induction envelopes with
    | nil => exact fun link => ⟨rfl, (List.append_nil _).symm⟩
    | cons envelope rest ih =>
      intro link
      obtain ⟨same, posted⟩ := ih (link.postEvent (.channel envelope))
      rw [List.foldl_cons, List.map_cons, posted, same]
      exact ⟨rfl, List.append_assoc _ [link.channelEvent envelope] _⟩
  exact posting _ _

/-- A payload is handled with the reordering the link has. -/
private theorem withPayload_reorders {use : LocalLink → Bytes → LinkHandleResult × LocalLink}
    (each : ∀ link plain, LocalLink.Reorders link (use link plain).2) :
    link.Reorders (link.withPayload crates packet use).2 := by
  -- A payload that does not decrypt leaves everything but the buffer alone.
  obtain ⟨buffer, ⟨-, ignored⟩ | ⟨plain, -, used⟩⟩ := withPayload_cases use
  · rw [ignored]
    exact .inl rfl
  · rw [used]
    exact each { link with decryptBuffer := buffer } plain

/-- Only a payload of the channel that no channel has taken over is reordered. -/
private theorem handleChannel_reorders (link : LocalLink) (plain : Bytes) :
    link.Reorders (link.handleChannel now packet plain).2 := by
  -- A payload that is no envelope is dropped before it reaches the order.
  unfold handleChannel
  split
  · exact .inl rfl
  · split
    · rename_i envelope _
      exact .inr ⟨now, envelope, (handleChannelEnvelope_events (link.markActivity now) now envelope).1⟩
    · exact .inl rfl

/-- A resource packet reorders nothing. -/
private theorem handleResourcePacket_reorders :
    link.Reorders (link.handleResourcePacket crates now packet).2 := by
  -- No branch for resources reads or writes the order of the channel.
  unfold handleResourcePacket
  split
  · exact .inl rfl
  · exact .inl rfl
  all_goals first | exact withPayload_reorders fun _ _ => .inl rfl | exact .inl rfl

/-- A keepalive reorders nothing. -/
private theorem handleKeepAlive_reorders : link.Reorders (link.handleKeepAlive now packet).2 := by
  -- A keepalive touches the activity at most.
  unfold handleKeepAlive
  split
  · split
    · exact .inl rfl
    · split <;> exact .inl rfl
  · exact .inl rfl

/-- Nor does a round-trip report. -/
private theorem handleRtt_reorders (handled : link.handleRtt crates packet = .ok (result, after)) :
    link.Reorders after := by
  -- Decryption changes the buffer only, and the round-trip time is set beside the channel.
  obtain ⟨buffer, grown⟩ := decryptIntoOwned_frame crates link packet.data
  unfold handleRtt at handled
  split at handled <;> rename_i decrypted <;> rw [decrypted] at grown <;> obtain rfl := grown
  · obtain ⟨-, rfl⟩ := Prod.mk.inj (Except.ok.inj handled)
    exact .inl rfl
  · split at handled
    · obtain ⟨-, rfl⟩ := Prod.mk.inj (Except.ok.inj handled)
      exact .inl rfl
    · obtain ⟨rtt, -, finished⟩ := bind_eq_ok.mp handled
      obtain ⟨-, rfl⟩ := Prod.mk.inj (Except.ok.inj finished)
      exact .inl rfl

/-- What a data packet does to the reordering. -/
private theorem handleDataPacket_reorders
    (handled : link.handleDataPacket crates now packet outLink = .ok (result, after)) :
    link.Reorders after := by
  have finish : ∀ {pair : LinkHandleResult × LocalLink}, link.Reorders pair.2 →
      (.ok pair : Outcome (LinkHandleResult × LocalLink)) = .ok (result, after) →
        link.Reorders after := by
    rintro pair reorders same
    obtain rfl := Except.ok.inj same
    exact reorders
  unfold handleDataPacket at handled
  -- The contexts in the order of the source.
  split at handled
  · exact finish (withPayload_reorders fun _ _ => .inl rfl) handled
  · -- An identification is only looked at by the responder.
    split at handled
    · exact finish (.inl rfl) handled
    · refine finish (withPayload_reorders fun link plain => ?_) handled
      unfold handleIdentify
      split <;> exact .inl rfl
  · refine finish (withPayload_reorders fun link plain => ?_) handled
    unfold handleRequest
    split <;> exact .inl rfl
  · refine finish (withPayload_reorders fun link plain => ?_) handled
    unfold handleResponse
    split <;> exact .inl rfl
  · exact finish (withPayload_reorders handleChannel_reorders) handled
  iterate 7 exact finish handleResourcePacket_reorders handled
  · exact finish handleKeepAlive_reorders handled
  · split at handled
    · exact finish (.inl rfl) handled
    · exact handleRtt_reorders handled
  · refine finish (withPayload_reorders fun link plain => ?_) handled
    unfold handleClose
    split <;> exact .inl rfl
  · exact finish (.inl rfl) handled

/-- A proof reorders nothing. -/
private theorem handleProofPacket_reorders :
    link.Reorders (link.handleProofPacket crates now packet).2 := by
  -- A proof activates the link or completes a packet.
  unfold handleProofPacket
  split <;> rename_i activated
  · unfold activateBy at activated
    split at activated
    · split at activated
      · obtain rfl := Option.some.inj activated
        exact .inl rfl
      · cases activated
    · cases activated
  · split
    · split <;> exact .inl rfl
    · exact .inl rfl

/-- What a packet does to the reordering. -/
private theorem handlePacket_reorders
    (handled : link.handlePacket crates now packet outLink = .ok (result, after)) :
    link.Reorders after := by
  -- Packets for this link go by their type, and others are ignored.
  by_cases here : packet.destination = link.id
  · rw [handlePacket_here here] at handled
    split at handled
    · exact (handleDataPacket_reorders handled : (link.note packet).Reorders after)
    · split at handled
      · obtain rfl := congrArg Prod.snd (Except.ok.inj handled)
        exact (handleResourcePacket_reorders : (link.note packet).Reorders _)
      · obtain rfl := congrArg Prod.snd (Except.ok.inj handled)
        exact (handleProofPacket_reorders : (link.note packet).Reorders _)
    · obtain rfl := congrArg Prod.snd (Except.ok.inj handled)
      exact .inl rfl
  · rw [handlePacket_elsewhere here] at handled
    obtain rfl := congrArg Prod.snd (Except.ok.inj handled)
    exact .inl rfl

/-- A packet on some interface does no more. -/
private theorem handlePacketFrom_reorders {iface : AddressHash}
    (handled : link.handlePacketFrom crates now packet outLink iface = .ok (result, after)) :
    link.Reorders after := by
  unfold handlePacketFrom at handled
  split at handled
  · obtain rfl := congrArg Prod.snd (Except.ok.inj handled)
    exact .inl rfl
  · obtain ⟨⟨answered, middle⟩, called, finished⟩ := bind_eq_ok.mp handled
    -- Binding the link for the call changes only its interface.
    have reorders : link.Reorders middle := by
      have bound := handlePacket_reorders called
      split at bound <;> exact bound
    dsimp only at finished
    split at finished
    · obtain rfl := congrArg Prod.snd (Except.ok.inj finished)
      exact reorders
    · obtain rfl := congrArg Prod.snd (Except.ok.inj finished)
      exact reorders

/-- What any call does to the reordering: packets are the only ones to touch it. -/
theorem Steps.reorders (done : link.Steps crates role call after) : link.Reorders after := by
  -- Of the calls only a received packet can change the order of the channel.
  cases call with
  | receive now packet iface =>
    obtain ⟨⟨result, handled⟩, finished, rfl⟩ := map_eq_ok.mp done
    exact handlePacketFrom_reorders finished
  | request now pathMtu => exact Except.ok.inj done ▸ .inl rfl
  | restart now => exact Except.ok.inj done ▸ .inl rfl
  | prove =>
    obtain rfl := Except.ok.inj done
    unfold prove
    dsimp only
    split <;> exact .inl rfl
  | teardown iv =>
    rw [Steps, perform_teardown, tearDown_link] at done
    obtain rfl := Except.ok.inj done
    split <;> exact .inl rfl
  | check now iv =>
    obtain rfl := Except.ok.inj done
    -- A check may tear down the link, which keeps the channel as it is.
    have effect := check_effect crates link role now iv
    generalize link.check crates role now iv = checked at effect
    cases effect with
    | tornDown stale late =>
      rw [tearDown_link]
      split <;> exact .inl rfl
    | _ => exact .inl rfl
  | keep now =>
    obtain rfl := Except.ok.inj done
    unfold keep
    split <;> exact .inl rfl

/-- The links a node can have: begun, called, or changed in what has nothing to do with what they received. -/
inductive Reached (crates : Crates) (role : LinkRole) : LocalLink → Prop where
  | begun {link : LocalLink} (begins : Begun crates role link) : Reached crates role link
  | called {link after : LocalLink} (reached : Reached crates role link) (call : LinkCall)
      (done : link.Steps crates role call after) : Reached crates role after
  /-- `bind_to_channel`, `prove_messages` and what else is set on a link. -/
  | changed {link after : LocalLink} (reached : Reached crates role link)
      (same : after.channelRx = link.channelRx) : Reached crates role after

/-- A link that was asked for has received nothing. -/
private theorem newFromRequest_channelRx {secret : LinkSecret} {destination : SingleInputDestination}
    (created : newFromRequest crates now secret packet destination = .ok link) :
    link.channelRx = .new 0 := by
  -- The link is made with a new channel once the keys of the peer are known.
  unfold newFromRequest at created
  dsimp only at created
  split at created
  · obtain ⟨peer, -, rest⟩ := bind_eq_ok.mp created
    split at rest
    · cases rest
    · obtain rfl := Except.ok.inj rest
      rfl
  · cases created

/-- What a link received and reorders is described by a sound stream. -/
theorem Reached.described (reached : Reached crates role link) :
    ∃ stream : Stream, stream.Sound 0 ∧ link.channelRx = stream.toRx 0 := by
  -- The induction is over the calls: each leaves the channel alone or hands it one envelope.
  induction reached with
  | begun begins =>
    refine ⟨.start, Stream.start_sound 0, ?_⟩
    rw [Stream.toRx_start]
    cases begins with
    | requested restartOutlinks now keys destination verifyDefault => rfl
    | accepted now secret packet destination link iface provesMessages created =>
      show link.channelRx = _
      exact newFromRequest_channelRx created
  | called reached call done ih =>
    obtain ⟨stream, sound, described⟩ := ih
    rcases done.reorders with same | ⟨now, envelope, handled⟩
    · exact ⟨stream, sound, same.trans described⟩
    · rw [described] at handled
      -- The stream takes the envelope in step with the channel.
      obtain ⟨after, still, next⟩ := sound.handle now envelope
      exact ⟨after, still, handled.trans next⟩
  | changed reached same ih =>
    obtain ⟨stream, sound, described⟩ := ih
    exact ⟨stream, sound, same.trans described⟩

/-- A call posts the envelope it was made with, and behind it only what was buffered, in its order. -/
def PostsFirst (link : LocalLink) (now : Instant) (envelope : ChannelEnvelope) : Prop :=
  ∃ behind, behind <+: link.channelRx.channelRxRing ∧
    (link.handleChannelEnvelope now envelope).events =
      link.events ++ (envelope :: behind).map link.channelEvent

/--
In every link a node can have, the call that handles the awaited envelope posts it in front of everything
buffered, exactly when nothing is buffered or the gap has not been open for too long.
-/
theorem awaited_posted_iff (reached : Reached crates role link) (now : Instant)
    {envelope : ChannelEnvelope} (awaited : envelope.sequence = link.channelRx.nextRxChannelSequence) :
    link.PostsFirst now envelope ↔
      link.channelRx.channelRxRing = [] ∨ link.channelRx.stallExpired now = false := by
  -- The ring of the link is the buffer of a stream with its numbers counted on.
  obtain ⟨stream, sound, described⟩ := reached.described
  have events := (handleChannelEnvelope_events link now envelope).2
  have empty : link.channelRx.channelRxRing = [] ↔ stream.held = [] := by
    rw [described]
    exact List.map_eq_nil_iff
  have clock : link.channelRx.stallExpired now = stream.stallExpired now := by
    rw [described]
    rfl
  rw [described] at awaited
  rw [empty, clock]
  constructor
  · rintro ⟨behind, -, first⟩
    by_contra late
    rw [not_or, Bool.not_eq_false] at late
    -- The first event would be of an envelope that was buffered, under another number.
    obtain ⟨posted, others⟩ := sound.drops_awaited awaited late.1 late.2
    rw [events, described, posted, List.drop_left] at first
    have same := List.append_cancel_left first
    cases held : (stream.toRx 0).channelRxRing with
    | nil => exact late.1 (List.map_eq_nil_iff.mp held)
    | cons other rest =>
      rw [held, List.map_cons, List.map_cons] at same
      have equal : other = envelope := by
        have event := congrArg LinkEventData.event (List.cons.inj same).1
        exact LinkEvent.channel.inj event
      exact others other (by rw [held]; exact List.mem_cons_self) (by rw [equal])
  · -- Otherwise it is passed on first, with what waited behind it.
    intro open_
    obtain ⟨behind, front, posted⟩ := sound.posts_awaited awaited open_
    refine ⟨behind, described ▸ front, ?_⟩
    rw [events, described, posted, List.drop_left]

/-- A link for concrete runs, as it begins. -/
private def awaitingLink : LocalLink :=
  .new 0 .sample ⟨⟨.filled 0, .filled 0⟩, .filled 9⟩ fun _ _ => false

/-- A new link posts the first envelope at once. -/
theorem awaited_posted_new : awaitingLink.PostsFirst 0 ⟨0, 0, []⟩ :=
  (@awaited_posted_iff .sample awaitingLink (.outLink true) (.begun (.requested true 0 _ _ _)) 0
    ⟨0, 0, []⟩ rfl).mpr (.inl rfl)

/-- It is asked for. -/
private def awaitingAsked : LocalLink := (awaitingLink.request 0 none).1

/-- The packet of the second envelope of the peer. -/
private def earlyPacket : Packet where
  header := { packetType := .data, destinationType := .link }
  destination := awaitingAsked.id
  transport := none
  context := .channel
  data := ((Fernet.ofDerivedKey Crates.sample.suite (List.replicate DERIVED_KEY_LENGTH 0)).cipher
    .zero).run [0, 0, 0, 1, 0, 0] |>.toOption.getD []

/-- The first envelope comes half a second after the second, which alone is posted for it. -/
theorem awaited_dropped :
    ∃ link, Reached .sample (.outLink true) link ∧ link.channelRx.nextRxChannelSequence = 0 ∧
      (link.handleChannelEnvelope (2 + CHANNEL_REORDER_TIMEOUT) ⟨0, 0, []⟩).events =
        link.events ++ [link.channelEvent ⟨0, 1, []⟩] := by
  have finished : passes (awaitingAsked.performAll .sample (.outLink true)
      [.receive 1 awaitingAsked.provePacket (.filled 1), .receive 2 earlyPacket (.filled 1)])
        (fun link => link.status = .active && link.channelRx = ⟨0, [⟨0, 1, []⟩], some 2, []⟩) = true := by
    decide +kernel
  obtain ⟨link, done, ended⟩ := exists_of_passes finished
  simp only [Bool.and_eq_true, decide_eq_true_eq] at ended
  -- Every call of the run is one of the node.
  have asked : Reached .sample (.outLink true) awaitingAsked :=
    .called (.begun (.requested true 0 _ _ _)) (.request 0 none) rfl
  have run := @Run.invariant _ _ _ (Reached .sample (.outLink true))
    (fun _ call _ reached done => reached.called call done) _ _ _ (Run.iff_foldlM.mpr done) asked
  refine ⟨link, run, by rw [ended.2], ?_⟩
  rw [(handleChannelEnvelope_events link _ _).2, ended.2]
  rfl

end LocalLink

end Reticulum
