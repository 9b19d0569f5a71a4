import ReticulumSdk.Link.MachineLaws

/-! What a packet can do to a link, said once for every kind of packet. -/

namespace Reticulum.LocalLink

/-- What a packet for this link decrypts to. -/
def plainText (crates : Crates) (link : LocalLink) (packet : Packet) : Option Bytes :=
  (link.decryptIntoOwned crates packet.data).1.toOption

/-- Whether a data packet is valid traffic of the peer, which counts as activity. -/
def hears (crates : Crates) (link : LocalLink) (packet : Packet) (outLink : Bool) : Bool :=
  match packet.context with
  | .none | .resourceAdvertisement | .resourceRequest | .resourceHashUpdate
  | .resourceInitiatorCancel | .resourceReceiverCancel => (link.plainText crates packet).isSome
  -- Parts and proofs of resources are not encrypted by the link.
  | .resource | .resourceProof => true
  | .linkIdentify =>
    ¬ outLink ∧ (link.plainText crates packet).any fun plain =>
      (link.validateLinkIdentify crates plain).toBool
  | .request => (link.plainText crates packet).any fun plain =>
      (decodeLinkRequest crates plain (.newFromHash packet.hash) (pythonRequestId packet)).isSome
  | .response => (link.plainText crates packet).any fun plain =>
      (decodeLinkResponse crates plain).isSome
  | .channel => (link.plainText crates packet).any fun plain =>
      link.channelTx.isSome || (Link.ChannelEnvelope.unpack plain).toBool
  | .keepAlive =>
    packet.data.head? = some KEEP_ALIVE_REQUEST ∨ packet.data.head? = some KEEP_ALIVE_RESPONSE
  | _ => false

/--
Whether valid traffic also posts an event: keepalives post none, nor do the packets of a bound channel
and the envelopes that are held for a gap before them.
-/
def posts (crates : Crates) (link : LocalLink) (now : Instant) (packet : Packet) (outLink : Bool) :
    Bool :=
  match packet.context with
  | .keepAlive => false
  | .channel => (link.plainText crates packet).any fun plain =>
      link.channelTx.isNone && match Link.ChannelEnvelope.unpack plain with
        | .ok envelope =>
          link.channelRx.posted.length <
            (link.channelRx.handleChannelEnvelope now envelope).posted.length
        | .error _ => false
  | _ => link.hears crates packet outLink

/-- Whether a data packet is the peer's `LinkClose`. -/
def closedBy (crates : Crates) (link : LocalLink) (packet : Packet) : Bool :=
  packet.context = .linkClose ∧ link.plainText crates packet = some link.id.bytes

/--
What `handle_data_packet` makes of a link: nothing but a larger buffer, or activity with events other
than the link's end, or another round-trip time, or a closed link.
-/
inductive DataEffect (crates : Crates) (link : LocalLink) (now : Instant) (packet : Packet)
    (outLink : Bool) : LocalLink → Prop where
  | ignored (buffer : Nat) (unheard : link.hears crates packet outLink = false) :
      DataEffect crates link now packet outLink { link with decryptBuffer := buffer }
  | heard (buffer : Nat) (channelRx : Link.ChannelRx) (channelTx : Option (List Bytes))
      (posted : List LinkEventData) (valid : link.hears crates packet outLink = true)
      (ordinary : ∀ event ∈ posted, event.event ≠ .closed ∧ event.event ≠ .activated)
      (quiet : link.posts crates now packet outLink = false → posted = []) :
      DataEffect crates link now packet outLink { link with
        decryptBuffer := buffer
        requestTime := now
        channelRx := channelRx
        channelTx := channelTx
        events := link.events ++ posted }
  | timed (buffer : Nat) (rtt : Duration) (context : packet.context = .linkRTT) :
      DataEffect crates link now packet outLink { link with decryptBuffer := buffer, rtt := rtt }
  | closed (buffer : Nat) (asked : link.closedBy crates packet = true) :
      DataEffect crates link now packet outLink { link with decryptBuffer := buffer }.close

/-- The link a valid proof activates, in which the peer has confirmed the size. -/
def activatedBy (crates : Crates) (link : LocalLink) (now : Instant) (identity : Identity)
    (confirmedMtu : Nat) : LocalLink :=
  { { link with mtu := confirmedMtu }.handshake crates identity with
    status := .active
    rtt := now.durationSince link.requestTime
    requestTime := now }.postEvent .activated

/-- The interface an accepted proof leaves a link with: an out-link without one takes the proof's. -/
def boundTo (link : LocalLink) (outLink : Bool) (iface : AddressHash) : Option AddressHash :=
  if outLink ∧ link.attachedInterface = none then some iface else link.attachedInterface

/-- Whether a link takes a packet for traffic of its peer: data, and the proofs of resources. -/
def IsTraffic (packet : Packet) : Bool :=
  packet.header.packetType = .data ∨
    packet.header.packetType = .proof ∧ packet.context = .resourceProof

/-- What `handle_packet_from` answers and makes of a link. -/
inductive Effect (crates : Crates) (link : LocalLink) (now : Instant) (packet : Packet)
    (outLink : Bool) (iface : AddressHash) : LinkHandleResult → LocalLink → Prop where
  | rejected (wrong : link.acceptsInterface iface = false) :
      Effect crates link now packet outLink iface .wrongInterface link
  /-- Packets for other links, proofs that prove nothing, and types no link handles. -/
  | noted (accepts : link.acceptsInterface iface = true)
      (useless : packet.destination = link.id → IsTraffic packet = false)
      (unproven : packet.destination = link.id → packet.header.packetType = .proof →
        link.status = .pending → packet.context = .linkRequestProof →
        (validateProofPacket crates.curves link.destination link.id packet).toBool = false) :
      Effect crates link now packet outLink iface .none (link.note packet)
  | data (result : LinkHandleResult) (after : LocalLink) (accepts : link.acceptsInterface iface = true)
      (here : packet.destination = link.id) (traffic : IsTraffic packet = true)
      (quiet : result ≠ .activated ∧ result ≠ .wrongInterface)
      (effect : DataEffect crates (link.note packet) now packet outLink after) :
      Effect crates link now packet outLink iface result after
  | proven (hash : Hash) (accepts : link.acceptsInterface iface = true)
      (here : packet.destination = link.id) (proof : packet.header.packetType = .proof)
      (context : packet.context = .none) (active : link.status = .active) :
      Effect crates link now packet outLink iface .none ((link.note packet).postEvent (.proof hash))
  | activated (identity : Identity) (confirmedMtu : Nat)
      (accepts : link.acceptsInterface iface = true) (here : packet.destination = link.id)
      (proof : packet.header.packetType = .proof) (context : packet.context = .linkRequestProof)
      (pending : link.status = .pending)
      (valid : validateProofPacket crates.curves link.destination link.id packet =
        .ok (identity, confirmedMtu)) :
      Effect crates link now packet outLink iface .activated
        ({ link.note packet with attachedInterface := link.boundTo outLink iface }.activatedBy crates
          now identity confirmedMtu)

variable {crates : Crates} {link after : LocalLink} {now : Instant} {packet : Packet}
  {outLink : Bool} {iface : AddressHash} {result : LinkHandleResult}

/-- Decryption only grows the buffer. -/
theorem decryptIntoOwned_frame (crates : Crates) (link : LocalLink) (text : Bytes) :
    ∃ buffer, (link.decryptIntoOwned crates text).2 = { link with decryptBuffer := buffer } :=
  ⟨_, rfl⟩

/-- A payload is used by the link with its grown buffer, if there is one. -/
theorem withPayload_cases (use : LocalLink → Bytes → LinkHandleResult × LocalLink) :
    ∃ buffer, (link.plainText crates packet = none ∧
        (link.withPayload crates packet use).2 = { link with decryptBuffer := buffer }) ∨
      ∃ plain, link.plainText crates packet = some plain ∧
        link.withPayload crates packet use = use { link with decryptBuffer := buffer } plain := by
  -- Decrypting leaves the link as it was but for the size of its buffer.
  obtain ⟨buffer, grown⟩ := decryptIntoOwned_frame crates link packet.data
  refine ⟨buffer, ?_⟩
  unfold withPayload plainText
  split <;> rename_i decrypted <;> rw [decrypted] at grown ⊢ <;> obtain rfl := grown
  · exact .inr ⟨_, rfl, rfl⟩
  · exact .inl ⟨rfl, rfl⟩

/-- Envelopes are posted one after the other, and as nothing else. -/
theorem handleChannelEnvelope_frame (now : Instant) (link : LocalLink)
    (envelope : Link.ChannelEnvelope) :
    ∃ channelRx posted, link.handleChannelEnvelope now envelope =
        { link with channelRx := channelRx, events := link.events ++ posted } ∧
      (∀ event ∈ posted, event.event ≠ .closed ∧ event.event ≠ .activated) ∧
      (¬ link.channelRx.posted.length <
        (link.channelRx.handleChannelEnvelope now envelope).posted.length → posted = []) := by
  -- The envelopes delivered are posted one by one, so the fold only appends channel events.
  have posting : ∀ (envelopes : List Link.ChannelEnvelope) (link : LocalLink), ∃ posted,
      envelopes.foldl (fun link envelope => link.postEvent (.channel envelope)) link =
        { link with events := link.events ++ posted } ∧
      (∀ event ∈ posted, event.event ≠ .closed ∧ event.event ≠ .activated) ∧
      (envelopes = [] → posted = []) := by
    intro envelopes
    induction envelopes with
    | nil => exact fun link => ⟨[], by simp, by simp, fun _ => rfl⟩
    | cons envelope rest ih =>
      intro link
      obtain ⟨posted, folded, ordinary, -⟩ := ih (link.postEvent (.channel envelope))
      refine ⟨⟨link.id, link.destination.addressHash, link.attachedInterface, .channel envelope⟩ :: posted,
        ?_, List.forall_mem_cons.mpr ⟨⟨by simp, by simp⟩, ordinary⟩, by simp⟩
      rw [List.foldl_cons, folded]
      simp only [postEvent, List.append_assoc, List.singleton_append]
  -- Nothing is posted when the reordering buffer delivered nothing new.
  obtain ⟨posted, folded, ordinary, quiet⟩ := posting _ _
  exact ⟨_, posted, folded, ordinary, fun none => quiet (List.drop_eq_nil_of_le (Nat.not_lt.mp none))⟩

/-- The effect of a packet with a payload is that of the use of the payload. -/
private theorem withPayload_effect {use : LocalLink → Bytes → LinkHandleResult × LocalLink}
    (unheard : link.plainText crates packet = none → link.hears crates packet outLink = false)
    (effect : ∀ buffer plain, link.plainText crates packet = some plain →
      DataEffect crates link now packet outLink (use { link with decryptBuffer := buffer } plain).2) :
    DataEffect crates link now packet outLink (link.withPayload crates packet use).2 := by
  obtain ⟨buffer, ⟨none, grown⟩ | ⟨plain, some, used⟩⟩ := withPayload_cases use
  · rw [grown]
    exact .ignored buffer (unheard none)
  · rw [used]
    exact effect buffer plain some

/-- One event that is no end is activity. -/
private theorem DataEffect.posted (buffer : Nat) (event : LinkEvent)
    (valid : link.hears crates packet outLink = true) (ordinary : event ≠ .closed)
    (other : event ≠ .activated)
    (told : packet.context ≠ .keepAlive ∧ packet.context ≠ .channel) :
    DataEffect crates link now packet outLink
      (({ link with decryptBuffer := buffer }.markActivity now).postEvent event) := by
  -- A context other than keepalive and channel posts whatever it hears.
  have posting : link.posts crates now packet outLink = true := by
    rw [← valid]
    unfold posts
    split
    · rename_i context
      exact absurd context told.1
    · rename_i context
      exact absurd context told.2
    · rfl
  exact .heard buffer link.channelRx link.channelTx _ valid
    (List.forall_mem_singleton.mpr ⟨ordinary, other⟩) fun quiet => by simp [posting] at quiet

/-- A resource packet is activity when it decrypts, or need not. -/
theorem handleResourcePacket_effect (resource : packet.context = .resource ∨
      packet.context = .resourceProof ∨ packet.context = .resourceAdvertisement ∨
      packet.context = .resourceRequest ∨ packet.context = .resourceHashUpdate ∨
      packet.context = .resourceInitiatorCancel ∨ packet.context = .resourceReceiverCancel) :
    DataEffect crates link now packet outLink (link.handleResourcePacket crates now packet).2 := by
  -- Resource parts and proofs are posted as they are; the other five contexts are decrypted first.
  unfold handleResourcePacket
  rcases resource with context | context | context | context | context | context | context <;>
    simp only [context]
  · exact .posted link.decryptBuffer _ (by simp [hears, context]) (by simp) (by simp)
      (by simp [context])
  · exact .posted link.decryptBuffer _ (by simp [hears, context]) (by simp) (by simp)
      (by simp [context])
  all_goals
    refine withPayload_effect (fun none => by simp [hears, context, none]) fun buffer plain some => ?_
    exact .posted buffer _ (by simp [hears, context, some]) (by simp) (by simp) (by simp [context])

/-- The peer identifies itself. -/
private theorem handleIdentify_effect (context : packet.context = .linkIdentify)
    (peer : ¬ outLink = true) : DataEffect crates link now packet outLink
      (link.withPayload crates packet fun link plain => link.handleIdentify crates now plain).2 := by
  refine withPayload_effect (fun none => by simp [hears, context, none]) fun buffer plain some => ?_
  unfold handleIdentify
  split <;> rename_i identified
  · refine .posted buffer _ ?_ (by simp) (by simp) (by simp [context])
    have valid : link.validateLinkIdentify crates plain = .ok _ := identified
    simp [hears, context, some, peer, valid, Except.toBool]
  · have invalid : link.validateLinkIdentify crates plain = .error _ := identified
    exact .ignored buffer (by simp [hears, context, some, invalid, Except.toBool])

/-- A payload for the channel. -/
private theorem handleChannel_effect (context : packet.context = .channel) :
    DataEffect crates link now packet outLink
      (link.withPayload crates packet fun link plain => link.handleChannel now packet plain).2 := by
  refine withPayload_effect (fun none => by simp [hears, context, none]) fun buffer plain some => ?_
  unfold handleChannel
  split <;> rename_i bound
  · -- A bound channel takes the payload without an event of the link.
    have taken : link.channelTx = _ := bound
    have valid : link.hears crates packet outLink = true := by simp [hears, context, some, taken]
    rename_i sent
    have heard : DataEffect crates link now packet outLink _ :=
      .heard buffer link.channelRx (.some (sent ++ [plain])) [] valid (by simp) fun _ => rfl
    simpa using heard
  · have unbound : link.channelTx = .none := bound
    split <;> rename_i unpacked
    · -- An envelope posts what it completes, which may be nothing.
      obtain ⟨channelRx, posted, delivered, ordinary, quiet⟩ := handleChannelEnvelope_frame now
        ({ link with decryptBuffer := buffer }.markActivity now) _
      have valid : link.hears crates packet outLink = true := by
        simp [hears, context, some, unpacked, Except.toBool]
      have heard : DataEffect crates link now packet outLink _ :=
        .heard buffer channelRx link.channelTx posted valid ordinary fun silent =>
          quiet (by simpa [posts, context, some, unbound, unpacked, markActivity] using silent)
      dsimp only
      rw [delivered]
      exact heard
    · exact .ignored buffer (by simp [hears, context, some, unbound, unpacked, Except.toBool])

/-- A keepalive counts as activity when its byte is one of the two. -/
private theorem handleKeepAlive_effect (context : packet.context = .keepAlive) :
    DataEffect crates link now packet outLink (link.handleKeepAlive now packet).2 := by
  -- Only the two keep-alive bytes count as activity; any other first byte is not heard.
  have unchanged : link.hears crates packet outLink = false →
      DataEffect crates link now packet outLink link := .ignored link.decryptBuffer
  have active : ∀ byte, packet.data.head? = some byte →
      byte = KEEP_ALIVE_REQUEST ∨ byte = KEEP_ALIVE_RESPONSE →
      DataEffect crates link now packet outLink (link.markActivity now) := by
    intro byte first kind
    have valid : link.hears crates packet outLink = true := by simpa [hears, context, first] using kind
    have heard : DataEffect crates link now packet outLink _ :=
      .heard link.decryptBuffer link.channelRx link.channelTx [] valid (by simp) fun _ => rfl
    rw [List.append_nil] at heard
    exact heard
  unfold handleKeepAlive
  split <;> rename_i first
  · split
    · rename_i request
      exact active _ first (.inl request)
    · rename_i other
      split
      · rename_i response
        exact active _ first (.inr response)
      · rename_i neither
        exact unchanged (by simp [hears, context, first, other, neither])
  · exact unchanged (by simp [hears, context, first])

/-- A round-trip time is taken over when it can be read, and counts as no activity. -/
private theorem handleRtt_effect (context : packet.context = .linkRTT)
    (handled : link.handleRtt crates packet = .ok (result, after)) :
    DataEffect crates link now packet outLink after := by
  -- Whatever the payload decrypts to, the buffer may have grown.
  obtain ⟨buffer, grown⟩ := decryptIntoOwned_frame crates link packet.data
  unfold handleRtt at handled
  split at handled <;> rename_i decrypted <;> rw [decrypted] at grown <;> obtain rfl := grown
  · obtain ⟨-, rfl⟩ := Prod.mk.inj (Except.ok.inj handled)
    exact .ignored buffer (by simp [hears, context])
  · split at handled
    · obtain ⟨-, rfl⟩ := Prod.mk.inj (Except.ok.inj handled)
      exact .ignored buffer (by simp [hears, context])
    · obtain ⟨rtt, -, finished⟩ := bind_eq_ok.mp handled
      obtain ⟨-, rfl⟩ := Prod.mk.inj (Except.ok.inj finished)
      exact .timed buffer rtt context

/-- Every data packet has one of the effects. -/
theorem handleDataPacket_effect
    (handled : link.handleDataPacket crates now packet outLink = .ok (result, after)) :
    DataEffect crates link now packet outLink after := by
  have unchanged : link.hears crates packet outLink = false →
      DataEffect crates link now packet outLink link := .ignored link.decryptBuffer
  -- The cases are the contexts, in the order of the source.
  unfold handleDataPacket at handled
  split at handled <;> rename_i context
  · obtain ⟨-, rfl⟩ := Prod.mk.inj (Except.ok.inj handled)
    refine withPayload_effect (fun none => by simp [hears, context, none]) fun buffer plain some => ?_
    exact .posted buffer _ (by simp [hears, context, some]) (by simp) (by simp) (by simp [context])
  · -- Only the peer identifies itself to the end that was asked for the link.
    split at handled
    · rename_i own
      obtain ⟨-, rfl⟩ := Prod.mk.inj (Except.ok.inj handled)
      exact unchanged (by simp [hears, context, own])
    · rename_i peer
      obtain ⟨-, rfl⟩ := Prod.mk.inj (Except.ok.inj handled)
      exact handleIdentify_effect context peer
  · obtain ⟨-, rfl⟩ := Prod.mk.inj (Except.ok.inj handled)
    refine withPayload_effect (fun none => by simp [hears, context, none]) fun buffer plain some => ?_
    unfold handleRequest
    split <;> rename_i decoded
    · exact .posted buffer _ (by simp [hears, context, some, decoded]) (by simp) (by simp)
        (by simp [context])
    · exact .ignored buffer (by simp [hears, context, some, decoded])
  · obtain ⟨-, rfl⟩ := Prod.mk.inj (Except.ok.inj handled)
    refine withPayload_effect (fun none => by simp [hears, context, none]) fun buffer plain some => ?_
    unfold handleResponse
    split <;> rename_i decoded
    · exact .posted buffer _ (by simp [hears, context, some, decoded]) (by simp) (by simp)
        (by simp [context])
    · exact .ignored buffer (by simp [hears, context, some, decoded])
  · obtain ⟨-, rfl⟩ := Prod.mk.inj (Except.ok.inj handled)
    exact handleChannel_effect context
  -- The seven contexts of resources are handled together.
  iterate 7
    · obtain ⟨-, rfl⟩ := Prod.mk.inj (Except.ok.inj handled)
      exact handleResourcePacket_effect (by simp [context])
  · obtain ⟨-, rfl⟩ := Prod.mk.inj (Except.ok.inj handled)
    exact handleKeepAlive_effect context
  · split at handled
    · obtain ⟨-, rfl⟩ := Prod.mk.inj (Except.ok.inj handled)
      exact unchanged (by simp [hears, context])
    · exact handleRtt_effect context handled
  · obtain ⟨-, rfl⟩ := Prod.mk.inj (Except.ok.inj handled)
    refine withPayload_effect (fun _ => by simp [hears, context]) fun buffer plain some => ?_
    -- The payload must name the link.
    unfold handleClose
    dsimp only
    split
    · rename_i named
      have asked : link.id.bytes = plain := named
      exact .closed buffer (by simp [closedBy, context, some, asked])
    · exact .ignored buffer (by simp [hears, context])
  · rename_i unknown
    obtain ⟨-, rfl⟩ := Prod.mk.inj (Except.ok.inj handled)
    refine unchanged ?_
    unfold hears
    split <;> first | rfl | (exfalso; simp_all)

/-- A data packet is never answered by an activation, nor as one from a wrong interface. -/
private theorem handleDataPacket_quiet
    (handled : link.handleDataPacket crates now packet outLink = .ok (result, after)) :
    result ≠ .activated ∧ result ≠ .wrongInterface := by
  rw [handleDataPacket_fst handled, answer]
  split
  · simp
  · split <;> simp

/-- What a proof does to a link, whatever interface it came on. -/
private theorem handleProofPacket_effect (crates : Crates) (now : Instant) (packet : Packet)
    (link : LocalLink) :
    (∃ identity confirmedMtu, packet.context = .linkRequestProof ∧ link.status = .pending ∧
      validateProofPacket crates.curves link.destination link.id packet =
        .ok (identity, confirmedMtu) ∧
      link.handleProofPacket crates now packet =
        (.activated, link.activatedBy crates now identity confirmedMtu)) ∨
    (∃ hash, packet.context = .none ∧ link.status = .active ∧
      link.handleProofPacket crates now packet = (.none, link.postEvent (.proof hash))) ∨
    ((link.status = .pending → packet.context = .linkRequestProof →
        (validateProofPacket crates.curves link.destination link.id packet).toBool = false) ∧
      link.handleProofPacket crates now packet = (.none, link)) := by
  -- A pending link awaits a link proof; any other link reads the packet as a message proof.
  unfold handleProofPacket activateBy
  by_cases awaited : link.status = .pending ∧ packet.context = .linkRequestProof
  · rw [if_pos awaited]
    cases valid : validateProofPacket crates.curves link.destination link.id packet with
    | ok confirmed => exact .inl ⟨confirmed.1, confirmed.2, awaited.2, awaited.1, rfl, rfl⟩
    -- A link proof that does not validate is not read as a message proof either: the link is pending.
    | error fault =>
      refine .inr (.inr ⟨fun _ _ => rfl, if_neg ?_⟩)
      simp [awaited.1]
  · rw [if_neg awaited]
    have unasked : link.status = .pending → packet.context = .linkRequestProof →
        (validateProofPacket crates.curves link.destination link.id packet).toBool = false :=
      fun pending context => absurd ⟨pending, context⟩ awaited
    dsimp only
    split
    · rename_i message
      split
      · rename_i hash _
        exact .inr (.inl ⟨hash, message.2, message.1, rfl⟩)
      · exact .inr (.inr ⟨unasked, rfl⟩)
    · exact .inr (.inr ⟨unasked, rfl⟩)

/-- A proof that comes to an out-link without an interface: it activates the link, or leaves it without. -/
private theorem handlePacket_tentative (accepts : link.acceptsInterface iface = true)
    (out : outLink = true) (unbound : link.attachedInterface = none)
    (proof : packet.header.packetType = .proof) (context : packet.context = .linkRequestProof)
    (called : { link with attachedInterface := some iface }.handlePacket crates now packet outLink =
      .ok (result, after)) :
    Effect crates link now packet outLink iface result
      (if result ≠ .activated then { after with attachedInterface := none } else after) := by
  have unbind : { ({ link with attachedInterface := some iface }.note packet) with
      attachedInterface := none } = link.note packet := by
    rw [← unbound]
    rfl
  by_cases here : packet.destination = link.id
  · rw [handlePacket_here (show packet.destination =
      { link with attachedInterface := some iface }.id from here)] at called
    simp only [proof, context, reduceCtorEq, if_false] at called
    rcases handleProofPacket_effect crates now packet
        ({ link with attachedInterface := some iface }.note packet) with
      ⟨identity, confirmedMtu, -, pending, valid, same⟩ | ⟨hash, other, -, -⟩ | ⟨unproven, same⟩
    · -- The link is activated and stays bound.
      rw [same] at called
      obtain ⟨rfl, rfl⟩ := Prod.mk.inj (Except.ok.inj called)
      rw [if_neg (by simp)]
      have bound : link.boundTo outLink iface = some iface := if_pos ⟨out, unbound⟩
      have effect : Effect crates link now packet outLink iface .activated _ :=
        .activated identity confirmedMtu accepts here proof context pending valid
      rw [bound] at effect
      exact effect
    · rw [context] at other
      cases other
    · -- The proof proves nothing, and the link is as open as before.
      rw [same] at called
      obtain ⟨rfl, rfl⟩ := Prod.mk.inj (Except.ok.inj called)
      rw [if_pos (by simp), unbind]
      exact .noted accepts (fun _ => by simp [IsTraffic, proof, context]) fun _ _ => unproven
  · rw [handlePacket_elsewhere (show packet.destination ≠
      { link with attachedInterface := some iface }.id from here)] at called
    obtain ⟨rfl, rfl⟩ := Prod.mk.inj (Except.ok.inj called)
    rw [if_pos (by simp), unbind]
    exact .noted accepts (fun other => absurd other here) fun other => absurd other here

/-- A packet that does not bind the link for the call. -/
private theorem handlePacket_settled (accepts : link.acceptsInterface iface = true)
    (settled : ¬ (outLink = true ∧ link.attachedInterface = none ∧
      packet.header.packetType = .proof ∧ packet.context = .linkRequestProof))
    (called : link.handlePacket crates now packet outLink = .ok (result, after)) :
    Effect crates link now packet outLink iface result after := by
  by_cases here : packet.destination = link.id
  · rw [handlePacket_here here] at called
    split at called
    · rename_i data
      exact .data _ _ accepts here (by simp [IsTraffic, data]) (handleDataPacket_quiet called)
        (handleDataPacket_effect called)
    · rename_i proof
      split at called
      · -- The proof of a resource is traffic like its parts.
        rename_i context
        have quiet : result ≠ .activated ∧ result ≠ .wrongInterface := by
          obtain rfl : result = .none :=
            (congrArg Prod.fst (Except.ok.inj called)).symm.trans handleResourcePacket_fst
          simp
        obtain rfl := congrArg Prod.snd (Except.ok.inj called)
        exact .data _ _ accepts here (by simp [IsTraffic, proof, context]) quiet
          (handleResourcePacket_effect (.inr (.inl context)))
      · -- Any other proof activates the link, proves a message, or is of no use.
        rename_i other
        rcases handleProofPacket_effect crates now packet (link.note packet) with
          ⟨identity, confirmedMtu, context, pending, valid, same⟩ |
            ⟨hash, context, active, same⟩ | ⟨unproven, same⟩
        · rw [same] at called
          obtain ⟨rfl, rfl⟩ := Prod.mk.inj (Except.ok.inj called)
          have bound : link.boundTo outLink iface = link.attachedInterface :=
            if_neg fun free => settled ⟨free.1, free.2, proof, context⟩
          have effect : Effect crates link now packet outLink iface .activated _ :=
            .activated identity confirmedMtu accepts here proof context pending valid
          rw [bound] at effect
          exact effect
        · rw [same] at called
          obtain ⟨rfl, rfl⟩ := Prod.mk.inj (Except.ok.inj called)
          exact .proven hash accepts here proof context active
        · rw [same] at called
          obtain ⟨rfl, rfl⟩ := Prod.mk.inj (Except.ok.inj called)
          exact .noted accepts (fun _ => by simp [IsTraffic, proof, other]) fun _ _ => unproven
    · rename_i data proof
      obtain ⟨rfl, rfl⟩ := Prod.mk.inj (Except.ok.inj called)
      exact .noted accepts (fun _ => by simpa [IsTraffic] using ⟨data, fun other => absurd other proof⟩)
        fun _ other => absurd other proof
  · rw [handlePacket_elsewhere here] at called
    obtain ⟨rfl, rfl⟩ := Prod.mk.inj (Except.ok.inj called)
    exact .noted accepts (fun other => absurd other here) fun other => absurd other here

/-- Every packet has one of the effects. -/
theorem handlePacketFrom_effect
    (handled : link.handlePacketFrom crates now packet outLink iface = .ok (result, after)) :
    Effect crates link now packet outLink iface result after := by
  unfold handlePacketFrom at handled
  split at handled
  · rename_i wrong
    obtain ⟨rfl, rfl⟩ := Prod.mk.inj (Except.ok.inj handled)
    exact .rejected (by simpa using wrong)
  rename_i accepted
  have accepts : link.acceptsInterface iface = true := not_not.mp accepted
  obtain ⟨⟨answered, linkAfter⟩, called, finished⟩ := bind_eq_ok.mp handled
  dsimp only at finished
  by_cases tentative : outLink = true ∧ link.attachedInterface = none ∧
      packet.header.packetType = .proof ∧ packet.context = .linkRequestProof
  · -- Only a link-request proof binds the link for the call; it activates the link or is undone.
    obtain ⟨out, unbound, proof, context⟩ := tentative
    simp only [out, unbound, proof, context, and_self, if_true, true_and] at called finished
    have effect := handlePacket_tentative accepts out unbound proof context (out ▸ called)
    split at finished
    · rename_i other
      obtain ⟨rfl, rfl⟩ := Prod.mk.inj (Except.ok.inj finished)
      rwa [if_pos other] at effect
    · rename_i active
      obtain ⟨rfl, rfl⟩ := Prod.mk.inj (Except.ok.inj finished)
      rwa [if_neg active] at effect
  · simp only [tentative, if_false, false_and] at called finished
    obtain ⟨rfl, rfl⟩ := Prod.mk.inj (Except.ok.inj finished)
    exact handlePacket_settled accepts tentative called

/-- Signature and key stand in front of the size. -/
private theorem provePacket_front (link : LocalLink) :
    ((link.sign (proofSigned link.id link.identity.publicKey link.identity.verifyingKey
      (linkSignallingBytes link.mtu))).bytes ++ link.identity.publicKey.bytes).length =
        SIGNATURE_LENGTH + PUBLIC_KEY_LENGTH := by
  rw [List.length_append, Signature.length_eq, PublicKey.length_eq]

/-- The proof a link builds always signals a size. -/
theorem provePacket_length (link : LocalLink) :
    link.provePacket.data.length = MTU_PROOF_LEN := by
  -- The signalling bytes are three, whatever they say.
  rw [provePacket, List.length_append, provePacket_front]
  rfl

/-- The bytes behind the signature and the key are those of the link's size. -/
theorem provePacket_signalled (link : LocalLink) :
    link.provePacket.data.drop (SIGNATURE_LENGTH + PUBLIC_KEY_LENGTH) =
      linkSignallingBytes link.mtu :=
  List.drop_left' link.provePacket_front

/-- The proof a link builds is valid where its signature is. -/
theorem validateProofPacket_provePacket {responder : LocalLink} {destination : DestinationDesc}
    {proof : Packet} (small : responder.mtu < 2 ^ 21) (carried : proof.data = responder.provePacket.data)
    (valid : crates.curves.validKey destination.identity.verifyingKey = true)
    (signed : crates.curves.verify destination.identity.verifyingKey
      (proofSigned link.id responder.identity.publicKey destination.identity.verifyingKey
        (linkSignallingBytes responder.mtu))
      (responder.sign (proofSigned responder.id responder.identity.publicKey
        responder.identity.verifyingKey (linkSignallingBytes responder.mtu))) = true) :
    validateProofPacket crates.curves destination link.id proof =
      .ok (⟨responder.identity.publicKey, destination.identity.verifyingKey⟩, responder.mtu) := by
  -- The three fields of the data are read back at their places.
  have signature := (responder.sign (proofSigned responder.id responder.identity.publicKey
    responder.identity.verifyingKey (linkSignallingBytes responder.mtu))).length_eq
  have length : proof.data.length = MTU_PROOF_LEN := by
    rw [carried, provePacket_length]
  have front : proof.data.take SIGNATURE_LENGTH = (responder.sign (proofSigned responder.id
      responder.identity.publicKey responder.identity.verifyingKey
        (linkSignallingBytes responder.mtu))).bytes := by
    rw [carried, provePacket, List.append_assoc]
    exact List.take_left' signature
  have middle : (proof.data.drop SIGNATURE_LENGTH).take PUBLIC_KEY_LENGTH =
      responder.identity.publicKey.bytes := by
    rw [carried, provePacket, List.append_assoc, List.drop_left' signature]
    exact List.take_left' responder.identity.publicKey.length_eq
  have back : proof.data.drop (SIGNATURE_LENGTH + PUBLIC_KEY_LENGTH) =
      linkSignallingBytes responder.mtu := by
    rw [carried, provePacket_signalled]
  unfold validateProofPacket
  simp only [length, or_true, dif_pos, ge_iff_le, le_refl, true_and, if_true, front, middle, back,
    modeFromSignallingBytes_linkSignallingBytes, ne_eq, not_true_eq_false, if_false,
    Identity.newFromSlices, valid, Bind.bind, Except.bind, signed,
    mtuFromSignallingBytes_linkSignallingBytes small]
  rfl

/-- A pending link that accepts the interface of a valid proof is activated by it. -/
theorem handlePacketFrom_activates {identity : Identity} {confirmedMtu : Nat}
    (accepts : link.acceptsInterface iface = true) (here : packet.destination = link.id)
    (proof : packet.header.packetType = .proof) (context : packet.context = .linkRequestProof)
    (pending : link.status = .pending)
    (valid : validateProofPacket crates.curves link.destination link.id packet =
      .ok (identity, confirmedMtu)) :
    link.handlePacketFrom crates now packet outLink iface = .ok (.activated,
      { link.note packet with attachedInterface := link.boundTo outLink iface }.activatedBy crates now
        identity confirmedMtu) := by
  -- The tentative binding changes neither the identifier nor the destination the proof is checked
  -- against.
  have activates : ∀ link' : LocalLink, link'.status = .pending → link'.id = link.id →
      link'.destination = link.destination →
      link'.handlePacket crates now packet outLink =
        .ok (.activated, (link'.note packet).activatedBy crates now identity confirmedMtu) := by
    intro link' awaiting id destination
    have there : packet.destination = link'.id := here.trans id.symm
    have accepted : (link'.note packet).activateBy crates now packet =
        some ((link'.note packet).activatedBy crates now identity confirmedMtu) := by
      have same : validateProofPacket crates.curves (link'.note packet).destination
          (link'.note packet).id packet = .ok (identity, confirmedMtu) := by
        change validateProofPacket crates.curves link'.destination link'.id packet = _
        rw [id, destination, valid]
      rw [activateBy, if_pos ⟨awaiting, context⟩, same]
      rfl
    rw [handlePacket_here there]
    simp only [proof, context, reduceCtorEq, if_false, handleProofPacket, accepted]
  unfold handlePacketFrom
  rw [if_neg (not_not.mpr accepts)]
  dsimp only
  -- An unbound out-link is bound before the packet is handled, and the activation keeps the binding.
  by_cases free : outLink = true ∧ link.attachedInterface = none
  · have bound : link.boundTo outLink iface = some iface := if_pos free
    rw [if_pos ⟨free.1, free.2, proof, context⟩,
      activates { link with attachedInterface := some iface } pending rfl rfl, bound]
    simp only [Bind.bind, Except.bind, ne_eq, not_true_eq_false, and_false, if_false]
    rfl
  · have bound : link.boundTo outLink iface = link.attachedInterface := if_neg free
    rw [if_neg (fun tentative => free ⟨tentative.1, tentative.2.1⟩), activates link pending rfl rfl,
      bound]
    simp only [Bind.bind, Except.bind, ne_eq, not_true_eq_false, and_false, if_false]
    rfl

/-- A data packet leaves a link its address, its size and its keys. -/
theorem DataEffect.keeps (effect : DataEffect crates link now packet outLink after) :
    after.id = link.id ∧ after.mtu = link.mtu ∧ after.derivedKey = link.derivedKey ∧
      after.attachedInterface = link.attachedInterface := by
  cases effect <;> exact ⟨rfl, rfl, rfl, rfl⟩

/-- A data packet leaves a link its status, or closes it. -/
theorem DataEffect.status (effect : DataEffect crates link now packet outLink after) :
    after.status = link.status ∨ link.closedBy crates packet = true ∧ after.status = .closed := by
  cases effect with
  | closed buffer asked => exact .inr ⟨asked, rfl⟩
  | _ => exact .inl rfl

/-- So does every packet that does not activate it. -/
theorem Effect.keeps (effect : Effect crates link now packet outLink iface result after)
    (other : result ≠ .activated) :
    after.id = link.id ∧ after.mtu = link.mtu ∧ after.derivedKey = link.derivedKey ∧
      after.attachedInterface = link.attachedInterface := by
  -- Of all effects only the activation writes these fields.
  cases effect with
  | rejected wrong => exact ⟨rfl, rfl, rfl, rfl⟩
  | noted accepts useless unproven => exact ⟨rfl, rfl, rfl, rfl⟩
  | data result after accepts here context quiet effect => exact effect.keeps
  | proven hash accepts here proof context active => exact ⟨rfl, rfl, rfl, rfl⟩
  | activated identity confirmedMtu => exact absurd rfl other

end Reticulum.LocalLink
