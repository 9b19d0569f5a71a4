import ReticulumSdk.Link.Effects
import ReticulumSdk.Transport.Dispatch
import ReticulumSdk.Transport.OwnLinks
import ReticulumSdk.Transport.PacketCacheLaws

/-! Copies of one packet of a link, some on the interface the link is bound to and some on others. -/

namespace Reticulum

namespace PacketCache

/-- A packet was noted at this very reading of the clock. -/
def NotedAt (cache : PacketCache) (now : Instant) (packet : Packet) : Prop :=
  ∃ track, cache.map.lookup packet.hash = some track ∧ track.time = now

variable {cache : PacketCache} {now : Instant} {packet other : Packet}

/-- What was noted is known. -/
theorem NotedAt.knows (noted : cache.NotedAt now packet) : cache.Knows packet := by
  obtain ⟨track, here, -⟩ := noted
  exact Table.mem_of_lookup here

/-- An update notes its packet. -/
theorem notedAt_update (cache : PacketCache) (now : Instant) (same : other.hash = packet.hash) :
    (cache.update now other).2.NotedAt now packet := by
  unfold update NotedAt
  rw [same]
  split <;> exact ⟨_, AList.lookup_insert _, rfl⟩

/-- A packet that was just noted stays noted, whatever else is. -/
theorem NotedAt.update (noted : cache.NotedAt now packet) (other : Packet) :
    (cache.update now other).2.NotedAt now packet := by
  by_cases same : other.hash = packet.hash
  · exact notedAt_update cache now same
  · obtain ⟨track, here, time⟩ := noted
    have apart : packet.hash ≠ other.hash := fun equal => same equal.symm
    refine ⟨track, ?_, time⟩
    unfold PacketCache.update
    split
    · exact (AList.lookup_insert_ne apart).trans here
    · -- Only what is older than now is evicted for it.
      have kept : (cache.evict now).map.lookup packet.hash = some track := by
        unfold evict
        split
        · split
          · rename_i key found
            obtain ⟨old, stored, earlier, -⟩ := exists_of_oldest found
            have other : packet.hash ≠ key := by
              rintro rfl
              obtain rfl := Option.some.inj (stored.symm.trans here)
              exact Nat.lt_irrefl _ (time ▸ earlier)
            exact (AList.lookup_erase_ne other).trans here
          · exact here
        · exact here
      exact (AList.lookup_insert_ne apart).trans kept

/-- What is released is not known. -/
theorem not_knows_releasePacket (cache : PacketCache) (same : other.hash = packet.hash) :
    ¬ (cache.releasePacket other).Knows packet := by
  unfold Knows releasePacket
  rw [same]
  simp [AList.mem_erase]

end PacketCache

/-- How often a link was given a copy of a packet. -/
def LocalLink.timesHandled (link : LocalLink) (packet : Packet) : Nat :=
  link.handled.countP fun given => SameMessage packet given

namespace TransportHandler

/-- `PendingSends::flush`, which notes every packet it sends. -/
def flush (handler : TransportHandler) (now : Instant) (pending : List TxMessage) :
    TransportHandler :=
  { handler with
    packetCache := pending.foldl (fun cache message => (cache.update now message.packet).2)
      handler.packetCache }

/-- The end of a link that a node has under an address. -/
def localLink (handler : TransportHandler) (outLink : Bool) (linkId : AddressHash) :
    Option LocalLink :=
  if outLink then handler.outLinkById linkId else handler.inLinks.lookup linkId

/--
One event at a node: a copy of the packet is received, one hop further, and the answers are flushed,
or anything happens that neither forgets the packet nor gives the link another copy of it.
-/
def CopyStep (crates : Crates) (outLink : Bool) (packet : Packet) (handler : TransportHandler)
    (event : NodeEvent) (after : TransportHandler) : Prop :=
  match event with
  | .arrives arrival pending => SameMessage packet arrival.packet ∧
      handler.acceptsTransportPacket arrival.packet = true ∧
      ∃ received, handler.Receives crates arrival received pending ∧
        after = received.flush arrival.around.now pending
  | .other => (after.packetCache.Knows packet ↔ handler.packetCache.Knows packet) ∧
      ∀ link, handler.localLink outLink packet.destination = some link → ∃ later,
        after.localLink outLink packet.destination = some later ∧
        later.attachedInterface = link.attachedInterface ∧
        later.timesHandled packet = link.timesHandled packet

/--
Nothing else at the node touches the copies of a link's packet: the other end of the link, if the
node has that too, is bound to the same interface, or is an out-link that is not bound yet, and no
copy from another interface is relayed.
-/
def Undivided (outLink : Bool) (bound : AddressHash) (handler : TransportHandler)
    (event : NodeEvent) : Prop :=
  match event with
  | .arrives arrival _ =>
    (∀ other, handler.localLink (!outLink) arrival.packet.destination = some other →
      other.attachedInterface = some bound ∨ outLink = false ∧ other.attachedInterface = none) ∧
    (arrival.iface ≠ bound →
      (handler.relayData arrival.around.now arrival.packet arrival.iface).2 = [])
  | .other => True

end TransportHandler

/-- Whether an event is a copy on the interface. -/
def NodeEvent.isOn (iface : AddressHash) : NodeEvent → Bool
  | .arrives arrival _ => arrival.iface = iface
  | .other => false

namespace LocalLink

variable {crates : Crates} {link after : LocalLink} {now : Instant} {packet copy : Packet}
  {outLink : Bool} {iface bound : AddressHash} {result : LinkHandleResult}

/-- A link says that the interface is wrong exactly when it is. -/
theorem handlePacketFrom_wrongInterface_iff
    (handled : link.handlePacketFrom crates now packet outLink iface = .ok (result, after)) :
    result = .wrongInterface ↔ link.acceptsInterface iface = false := by
  -- Only a rejected packet is answered so, and it is rejected for its interface.
  cases handlePacketFrom_effect handled with
  | rejected wrong => exact iff_of_true rfl wrong
  | data result after accepts here traffic quiet effect =>
    exact iff_of_false quiet.2 (by simp [accepts])
  | noted accepts | proven _ accepts | activated _ _ accepts =>
    exact iff_of_false (by simp) (by simp [accepts])

/-- Data leaves a link bound as it was. -/
theorem handlePacketFrom_attached (data : packet.header.packetType = .data)
    (handled : link.handlePacketFrom crates now packet outLink iface = .ok (result, after)) :
    after.attachedInterface = link.attachedInterface := by
  -- Only an activation binds an interface, and it takes a proof.
  have effect := handlePacketFrom_effect handled
  cases effect with
  | activated identity confirmedMtu accepts here proof =>
    rw [data] at proof
    cases proof
  | data result after accepts here traffic quiet inner => exact (inner.keeps).2.2.2
  | rejected | noted | proven => rfl

/-- A copy that comes on the right interface is handled once more, and no other is. -/
theorem handlePacketFrom_timesHandled (same : SameMessage packet copy)
    (attached : link.attachedInterface = some bound)
    (handled : link.handlePacketFrom crates now copy outLink iface = .ok (result, after)) :
    after.timesHandled packet = link.timesHandled packet + if iface = bound then 1 else 0 := by
  -- The bound interface is the only one the link accepts, and an accepted packet is recorded once.
  have grown := handlePacketFrom_handled handled
  unfold timesHandled
  rw [grown]
  by_cases here : iface = bound
  · have accepts : link.acceptsInterface iface = true :=
      acceptsInterface_of_bound (attached.trans (congrArg some here.symm))
    rw [if_pos accepts, if_pos here, List.countP_append, List.countP_singleton]
    simp [same]
  · have rejects : ¬ link.acceptsInterface iface = true := by
      simp only [acceptsInterface, attached, decide_eq_true_eq]
      exact fun equal => here equal.symm
    rw [if_neg rejects, if_neg here, Nat.add_zero]

end LocalLink

namespace TransportHandler

variable {crates : Crates} {around : Surroundings} {handler after : TransportHandler}
  {packet copy : Packet} {iface bound : AddressHash} {pending : List TxMessage} {now : Instant}
  {outLink : Bool}

/-- What is flushed leaves a packet noted that was noted just before. -/
theorem flush_notedAt (noted : handler.packetCache.NotedAt now packet) (pending : List TxMessage) :
    (handler.flush now pending).packetCache.NotedAt now packet := by
  -- Each message sent is noted at the same time, which evicts nothing noted then.
  unfold flush
  dsimp only
  generalize handler.packetCache = cache at noted
  induction pending generalizing cache with
  | nil => exact noted
  | cons message rest ih => exact ih _ (noted.update message.packet)

/-- Preparing an answer does, too. -/
theorem prepare_notedAt (noted : handler.packetCache.NotedAt now packet) (answer : Packet) :
    (handler.prepare now answer).2.packetCache.NotedAt now packet := by
  unfold prepare
  split
  · exact noted.update answer
  · split <;> exact noted.update _

/-- An in-link that accepts the interface of a copy leaves it noted. -/
theorem dataToInLink_notedAt (noted : handler.packetCache.NotedAt around.now packet)
    (accepts : ∀ link, handler.inLinks.lookup copy.destination = some link →
      link.acceptsInterface iface = true)
    (handled : handler.dataToInLink crates around copy iface = .ok (after, pending)) :
    after.packetCache.NotedAt around.now packet := by
  -- Only the wrong interface releases the packet, and no accepting link answers so.
  unfold dataToInLink at handled
  split at handled
  · obtain ⟨rfl, -⟩ := Prod.mk.inj (Except.ok.inj handled)
    exact noted
  · rename_i link found
    obtain ⟨⟨result, linkAfter⟩, called, finished⟩ := bind_eq_ok.mp handled
    dsimp only at finished
    split at finished <;> obtain ⟨rfl, -⟩ := Prod.mk.inj (Except.ok.inj finished)
    · have wrong := (LocalLink.handlePacketFrom_wrongInterface_iff called).mp rfl
      rw [accepts link found] at wrong
      cases wrong
    · refine prepare_notedAt ?_ _
      exact noted
    · refine prepare_notedAt ?_ _
      exact noted
    · exact noted

/-- So does an out-link. -/
theorem dataToOutLink_notedAt (noted : handler.packetCache.NotedAt around.now packet)
    (accepts : ∀ link, handler.outLinkById copy.destination = some link →
      link.acceptsInterface iface = true)
    (handled : handler.dataToOutLink crates around copy iface = .ok after) :
    after.packetCache.NotedAt around.now packet := by
  -- Only the wrong interface releases the packet, and no accepting link answers so.
  unfold dataToOutLink at handled
  split at handled
  · obtain rfl := Except.ok.inj handled
    exact noted
  · rename_i place found
    obtain ⟨⟨result, linkAfter⟩, called, finished⟩ := bind_eq_ok.mp handled
    dsimp only at finished
    split at finished <;> obtain rfl := Except.ok.inj finished
    · rename_i wrongInterface
      have wrong := (LocalLink.handlePacketFrom_wrongInterface_iff called).mp wrongInterface
      rw [accepts (handler.outLink place) (by simp [outLinkById, found])] at wrong
      cases wrong
    · exact noted

/-- An in-link that rejects the interface of a copy answers nothing and forgets it. -/
theorem dataToInLink_rejected (same : SameMessage packet copy)
    (rejects : ∀ link, handler.inLinks.lookup copy.destination = some link →
      link.acceptsInterface iface = false)
    (handled : handler.dataToInLink crates around copy iface = .ok (after, pending)) :
    pending = [] ∧ (copy.destination ∈ handler.inLinks → ¬ after.packetCache.Knows packet) := by
  -- A link bound elsewhere answers with the wrong interface, which releases the packet and sends
  -- nothing.
  unfold dataToInLink at handled
  split at handled
  · rename_i absent
    obtain ⟨-, rfl⟩ := Prod.mk.inj (Except.ok.inj handled)
    exact ⟨rfl, fun member => absurd member (AList.lookup_eq_none.mp absent)⟩
  · rename_i link found
    obtain ⟨⟨result, linkAfter⟩, called, finished⟩ := bind_eq_ok.mp handled
    obtain rfl := (LocalLink.handlePacketFrom_wrongInterface_iff called).mpr (rejects link found)
    obtain ⟨rfl, rfl⟩ := Prod.mk.inj (Except.ok.inj finished)
    exact ⟨rfl, fun _ => PacketCache.not_knows_releasePacket _ same.hash⟩

/-- An out-link forgets it, or does nothing to the packets that are known. -/
theorem dataToOutLink_forgets (same : SameMessage packet copy)
    (forgotten : ¬ handler.packetCache.Knows packet ∨
      ∃ link, handler.outLinkById copy.destination = some link ∧ link.acceptsInterface iface = false)
    (handled : handler.dataToOutLink crates around copy iface = .ok after) :
    ¬ after.packetCache.Knows packet := by
  -- Either the link rejects the copy and releases it, or the packet was forgotten before and stays so.
  unfold dataToOutLink at handled
  split at handled
  · rename_i absent
    obtain rfl := Except.ok.inj handled
    refine forgotten.resolve_right ?_
    rintro ⟨link, here, -⟩
    simp [outLinkById, absent] at here
  · rename_i place found
    obtain ⟨⟨result, linkAfter⟩, called, finished⟩ := bind_eq_ok.mp handled
    dsimp only at finished
    split at finished <;> obtain rfl := Except.ok.inj finished
    · exact PacketCache.not_knows_releasePacket _ same.hash
    · rename_i right
      refine forgotten.resolve_right ?_
      rintro ⟨link, here, rejects⟩
      rw [outLinkById, found] at here
      obtain rfl := Option.some.inj here
      exact right ((LocalLink.handlePacketFrom_wrongInterface_iff called).mpr rejects)

/-- What is relayed of data that is no keepalive depends on the routes alone. -/
theorem relayData_congr (context : packet.context ≠ .keepAlive) (same : SameRoutes handler after)
    (now : Instant) (iface : AddressHash) :
    (after.relayData now packet iface).2 = (handler.relayData now packet iface).2 := by
  -- Off keepalives what is relayed depends on the link table and the path table alone.
  unfold relayData handleKeepaliveResponse
  rw [if_neg context, if_neg context]
  dsimp only
  rw [same.linkTable]
  split
  · rfl
  · split
    · rfl
    · rename_i destination _
      unfold resolveNextHop
      rw [same.pathTable]
      cases handler.pathTable.handleInboundPacket packet (some destination) with
      | mk routed next => cases next <;> rfl

variable {arrival : Arrival}

/-- The parts of `handle_data` for a link, and what each of them leaves for the next. -/
private theorem handleLinkData_parts (data : arrival.packet.header.packetType = .data)
    (handled : handler.handleLinkData crates arrival.around arrival.packet arrival.iface =
      .ok (after, pending)) :
    ∃ first answers second,
      handler.dataToInLink crates arrival.around arrival.packet arrival.iface = .ok (first, answers) ∧
      first.dataToOutLink crates arrival.around arrival.packet arrival.iface = .ok second ∧
      first.outLinkById arrival.packet.destination = handler.outLinkById arrival.packet.destination ∧
      SameRoutes handler second ∧ after.packetCache = second.packetCache ∧
      pending = answers ++ (second.relayData arrival.around.now arrival.packet arrival.iface).2 := by
  -- The three stages of the handler, with what each of them leaves as it was.
  obtain ⟨⟨first, answers⟩, answered, rest⟩ := bind_eq_ok.mp handled
  obtain ⟨second, passed, finished⟩ := bind_eq_ok.mp rest
  obtain ⟨⟨outLink, byLinkId⟩, -, -⟩ := dataToInLink_links data answered
  have before := (dataToInLink_ok data answered).1
  have routes := dataToOutLink_ok passed
  have relayed := relayData_frame second arrival.around.now arrival.packet arrival.iface
  have ended : after = (second.relayData arrival.around.now arrival.packet arrival.iface).1 ∧
      pending = answers ++ (second.relayData arrival.around.now arrival.packet arrival.iface).2 := by
    obtain ⟨rfl, rfl⟩ := Prod.mk.inj (Except.ok.inj finished)
    exact ⟨rfl, rfl⟩
  refine ⟨first, answers, second, answered, passed, ?_,
    ⟨routes.linkTable.trans before.linkTable, routes.pathTable.trans before.pathTable⟩, ?_, ended.2⟩
  · unfold outLinkById
    rw [outLink, byLinkId]
  · rw [ended.1]
    exact congrArg (·.packetCache) relayed

/-- A copy that every end of its link accepts stays noted. -/
theorem handleLinkData_notedAt (data : arrival.packet.header.packetType = .data)
    (noted : handler.packetCache.NotedAt arrival.around.now packet)
    (accepts : ∀ outLink link, handler.localLink outLink arrival.packet.destination = some link →
      link.acceptsInterface arrival.iface = true)
    (handled : handler.handleLinkData crates arrival.around arrival.packet arrival.iface =
      .ok (after, pending)) : after.packetCache.NotedAt arrival.around.now packet := by
  -- Neither link end releases the packet, and relaying does not touch the cache.
  obtain ⟨first, answers, second, answered, passed, same, -, cache, -⟩ :=
    handleLinkData_parts data handled
  rw [cache]
  refine dataToOutLink_notedAt (dataToInLink_notedAt noted (accepts false) answered) ?_ passed
  intro link here
  exact accepts true link (same.symm.trans here)

/--
A copy that an end of its link rejects, and that no in-link accepts, is forgotten, and nothing is sent
for it unless it is relayed.
-/
theorem handleLinkData_forgets (same : SameMessage packet arrival.packet)
    (data : arrival.packet.header.packetType = .data) (context : arrival.packet.context ≠ .keepAlive)
    {link : LocalLink} (here : handler.localLink outLink arrival.packet.destination = some link)
    (rejects : link.acceptsInterface arrival.iface = false)
    (inward : ∀ other, handler.inLinks.lookup arrival.packet.destination = some other →
      other.acceptsInterface arrival.iface = false)
    (handled : handler.handleLinkData crates arrival.around arrival.packet arrival.iface =
      .ok (after, pending)) :
    ¬ after.packetCache.Knows packet ∧
      pending = (handler.relayData arrival.around.now arrival.packet arrival.iface).2 := by
  -- An in-link releases the copy itself; with an out-link only the later stage does.
  obtain ⟨first, answers, second, answered, passed, outward, routes, cache, sent⟩ :=
    handleLinkData_parts data handled
  obtain ⟨rfl, forgotten⟩ := dataToInLink_rejected same inward answered
  rw [cache, sent, List.nil_append, relayData_congr context routes]
  refine ⟨dataToOutLink_forgets same ?_ passed, rfl⟩
  cases outLink with
  | false => exact .inl (forgotten (Table.mem_of_lookup here))
  | true => exact .inr ⟨link, outward.trans here, rejects⟩

/-- The filter passes data that is no keepalive when it is new, and notes it. -/
theorem filterDuplicatePackets_copy {passed : Bool} (data : copy.header.packetType = .data)
    (context : copy.context ≠ .keepAlive)
    (filtered : handler.filterDuplicatePackets now copy = (passed, after)) :
    (passed = true ↔ ¬ handler.packetCache.Knows copy) ∧ SameLinks handler after ∧
      SameRoutes handler after ∧ after.packetCache = (handler.packetCache.update now copy).2 := by
  -- Link data off keepalives is never allowed twice, so the cache alone decides.
  have strict : handler.allowDuplicate copy = false := by
    simp only [allowDuplicate, data]
    exact decide_eq_false context
  unfold filterDuplicatePackets at filtered
  obtain ⟨rfl, rfl⟩ := Prod.mk.inj filtered
  refine ⟨?_, ⟨rfl, rfl, rfl⟩, ⟨rfl, rfl⟩, rfl⟩
  rw [strict, Bool.or_false]
  exact handler.packetCache.update_fst now copy

/-- The links of a node are the same under either name. -/
theorem SameLinks.localLink (same : SameLinks handler after) (outLink : Bool) (linkId : AddressHash) :
    after.localLink outLink linkId = handler.localLink outLink linkId := by
  unfold TransportHandler.localLink
  rw [same.outLinkById, same.inLinks]

/-- A bound link was given so many copies, and one more if the packet is known. -/
def Counted (outLink : Bool) (bound : AddressHash) (packet : Packet) (times : Nat)
    (handler : TransportHandler) (known : Bool) : Prop :=
  (handler.packetCache.Knows packet ↔ known = true) ∧
    ∃ link, handler.localLink outLink packet.destination = some link ∧
      link.attachedInterface = some bound ∧
      link.timesHandled packet = times + if known then 1 else 0

/-- A copy that passes the filter is counted if it came on the interface the link is bound to. -/
private theorem counted_of_passed {times : Nat} {filtered : TransportHandler}
    (same : SameMessage packet arrival.packet) (data : arrival.packet.header.packetType = .data)
    (context : arrival.packet.context ≠ .keepAlive)
    (counted : Counted outLink bound packet times handler false)
    (undivided : handler.Undivided outLink bound (.arrives arrival pending))
    (fresh : handler.filterDuplicatePackets arrival.around.now arrival.packet = (true, filtered))
    (handled : filtered.handleLinkData crates arrival.around arrival.packet arrival.iface =
      .ok (after, pending)) :
    Counted outLink bound packet times (after.flush arrival.around.now pending)
      (decide (arrival.iface = bound)) := by
  obtain ⟨-, links, routes, cache⟩ := filterDuplicatePackets_copy data context fresh
  obtain ⟨-, link, here, attached, count⟩ := counted
  obtain ⟨otherEnd, unrelayed⟩ := undivided
  have there : filtered.localLink outLink arrival.packet.destination = some link := by
    rw [links.localLink, same.destination]
    exact here
  -- The link itself is given the copy, whichever end of it the node has.
  obtain ⟨result, later, called, kept⟩ : ∃ result later,
      link.handlePacketFrom crates arrival.around.now arrival.packet outLink arrival.iface =
        .ok (result, later) ∧ after.localLink outLink arrival.packet.destination = some later := by
    obtain ⟨-, inward, outward⟩ := handleLinkData_links data handled
    cases outLink with
    | false => exact inward link there
    | true => exact outward link there
  have given := LocalLink.handlePacketFrom_timesHandled same attached called
  refine ⟨?_, later, by rw [← same.destination]; exact kept,
    (LocalLink.handlePacketFrom_attached data called).trans attached, ?_⟩
  · rw [decide_eq_true_iff]
    by_cases right : arrival.iface = bound
    · refine iff_of_true (PacketCache.NotedAt.knows (flush_notedAt ?_ pending)) right
      refine handleLinkData_notedAt data ?_ (fun role other held => ?_) handled
      · rw [cache]
        exact PacketCache.notedAt_update _ _ same.hash
      · rw [links.localLink] at held
        by_cases own : role = outLink
        · rw [own, same.destination, here] at held
          obtain rfl := Option.some.inj held
          exact LocalLink.acceptsInterface_of_bound (attached.trans (congrArg some right.symm))
        · rw [Bool.eq_not_of_ne own] at held
          rcases otherEnd other held with sameEnd | ⟨-, unbound⟩
          · exact LocalLink.acceptsInterface_of_bound (sameEnd.trans (congrArg some right.symm))
          · simp [LocalLink.acceptsInterface, unbound]
    · have rejects : ∀ other : LocalLink, other.attachedInterface = some bound →
          other.acceptsInterface arrival.iface = false := by
        intro other sameEnd
        simp only [LocalLink.acceptsInterface, sameEnd, decide_eq_false_iff_not]
        exact fun equal => right equal.symm
      have forgets := handleLinkData_forgets same data context there (rejects link attached) ?_ handled
      · obtain ⟨forgotten, sent⟩ := forgets
        rw [relayData_congr context routes, unrelayed right] at sent
        rw [sent]
        exact iff_of_false forgotten right
      · intro other held
        rw [links.inLinks] at held
        cases outLink with
        | false =>
          have own : handler.inLinks.lookup packet.destination = some link := here
          rw [same.destination, own] at held
          obtain rfl := Option.some.inj held
          exact rejects _ attached
        | true =>
          rcases otherEnd other held with sameEnd | ⟨inLink, -⟩
          · exact rejects other sameEnd
          · cases inLink
  · rw [given, count]
    simp

/-- After a step the packet is known if it was before, or if a copy came on the right interface. -/
private theorem CopyStep.counted {event : NodeEvent} {times : Nat} {known : Bool}
    (data : packet.header.packetType = .data) (toLink : packet.header.destinationType = .link)
    (context : packet.context ≠ .keepAlive) (address : packet.destination ≠ fixedDestPathRequests)
    (counted : Counted outLink bound packet times handler known)
    (step : handler.CopyStep crates outLink packet event after)
    (undivided : handler.Undivided outLink bound event) :
    Counted outLink bound packet times after (known || event.isOn bound) := by
  obtain ⟨knows, link, here, attached, count⟩ := counted
  cases event with
  | other =>
    obtain ⟨same, kept⟩ := step
    obtain ⟨later, there, sameEnd, sameCount⟩ := kept link here
    rw [show NodeEvent.other.isOn bound = false from rfl, Bool.or_false]
    exact ⟨same.trans knows, later, there, sameEnd.trans attached, sameCount.trans count⟩
  | arrives arrival pending =>
    obtain ⟨same, accepted, received, receives, rfl⟩ := step
    have isData : arrival.packet.header.packetType = .data := same.packetType.trans data
    have isOrdinary : arrival.packet.context ≠ .keepAlive := fun other =>
      context (same.context.symm.trans other)
    have sameKnown : ∀ cache : PacketCache, cache.Knows arrival.packet ↔ cache.Knows packet := by
      intro cache
      unfold PacketCache.Knows
      rw [same.hash]
    cases receives with
    | pathRequest taken => exact absurd (same.destination.symm.trans taken) address
    | foreign _ rejected =>
      rw [accepted] at rejected
      cases rejected
    | duplicate _ _ dropped silent =>
      -- What is dropped was known before, and is known still.
      obtain ⟨passes, links, -, cache⟩ := filterDuplicatePackets_copy isData isOrdinary dropped
      have before : handler.packetCache.Knows packet := by
        rw [← sameKnown]
        by_contra unknown
        cases passes.mpr unknown
      obtain rfl := knows.mp before
      rw [silent, Bool.true_or]
      refine ⟨iff_of_true ?_ rfl, link, (links.localLink _ _).trans here, attached, count⟩
      change received.packetCache.Knows packet
      rw [cache, ← sameKnown]
      exact PacketCache.update_knows _ _ _
    | passed _ _ filtered fresh dispatched =>
      obtain ⟨passes, -⟩ := filterDuplicatePackets_copy isData isOrdinary fresh
      obtain rfl : known = false := Bool.eq_false_iff.mpr fun known =>
        passes.mp rfl ((sameKnown _).mpr (knows.mpr known))
      rw [Bool.false_or]
      cases dispatched with
      | linkData _ _ handled =>
        exact counted_of_passed same isData isOrdinary ⟨knows, link, here, attached, count⟩ undivided
          fresh handled
      | otherData _ other => exact absurd (same.destinationType.trans toLink) other
      | linkRequest kind | proof kind | announce kind =>
        rw [isData] at kind
        cases kind

end TransportHandler

open TransportHandler in
/--
In every run over copies of one packet of a link, whose ends at the node are bound alike and whose
copies on other interfaces are not relayed, the link handles the packet once if a copy came on the
interface it is bound to, and otherwise never.
-/
theorem copies_handled_once_of_undivided {crates : Crates} {outLink : Bool} {packet : Packet}
    {bound : AddressHash} {handler after : TransportHandler} {events : List NodeEvent}
    {link : LocalLink} (data : packet.header.packetType = .data)
    (toLink : packet.header.destinationType = .link) (context : packet.context ≠ .keepAlive)
    (address : packet.destination ≠ fixedDestPathRequests)
    (here : handler.localLink outLink packet.destination = some link)
    (attached : link.attachedInterface = some bound) (new : ¬ handler.packetCache.Knows packet)
    (run : Run (fun handler event after => handler.CopyStep crates outLink packet event after ∧
      handler.Undivided outLink bound event) handler events after) :
    ∃ later, after.localLink outLink packet.destination = some later ∧
      later.timesHandled packet =
        link.timesHandled packet + if events.any (·.isOn bound) then 1 else 0 := by
  -- The run decides whether the packet is known in the end, which is counted along it.
  have counting : ∀ {known : Bool}, Counted outLink bound packet (link.timesHandled packet) handler
      known → Counted outLink bound packet (link.timesHandled packet) after
        (known || events.any (·.isOn bound)) := by
    clear here attached new
    induction run with
    | done state =>
      intro known counted
      rw [List.any_nil, Bool.or_false]
      exact counted
    | next first rest ih =>
      intro known counted
      rw [List.any_cons, ← Bool.or_assoc]
      exact ih (CopyStep.counted data toLink context address counted first.1 first.2)
  have start : Counted outLink bound packet (link.timesHandled packet) handler false :=
    ⟨iff_of_false new (by simp), link, here, attached, rfl⟩
  obtain ⟨-, later, there, -, count⟩ := counting start
  rw [Bool.false_or] at count
  exact ⟨later, there, count⟩

/-- A node with the in-link of a link for concrete runs, bound to an interface. -/
private def inEnd : TransportHandler :=
  { TransportHandler.new ⟨.filled 0, false, false, true, false⟩ with
    inLinks := AList.insert (.filled 1) (.sample (.filled 2)) ∅ }

/-- A copy of one packet of the link, on an interface. -/
private def copyOn (iface : AddressHash) : Arrival where
  packet := {
    header := Link.header .data
    destination := .filled 1
    transport := none
    context := .none
    data := [] }
  iface := iface
  radio := ⟨none, none⟩
  around := ⟨5, .zero, false⟩
  secret := ⟨.filled 0, fun _ _ => []⟩

/-- A copy that is new passes the filter. -/
private theorem copyOn_passes {handler : TransportHandler} {iface : AddressHash}
    (new : ¬ handler.packetCache.Knows (copyOn iface).packet) :
    handler.filterDuplicatePackets 5 (copyOn iface).packet =
      (true, (handler.filterDuplicatePackets 5 (copyOn iface).packet).2) := by
  refine Prod.ext ?_ rfl
  have context : (copyOn iface).packet.context ≠ .keepAlive := by simp [copyOn]
  exact (TransportHandler.filterDuplicatePackets_copy rfl context rfl).1.mpr new

open TransportHandler in
/-- A copy on another interface first, and then one on its own: the link handles the packet once. -/
theorem copies_handled_once_of_undivided_crossed :
    ∃ after events, Run (fun handler event after =>
        handler.CopyStep .sample false (copyOn (.filled 2)).packet event after ∧
        handler.Undivided false (.filled 2) event) inEnd events after ∧
      ∃ later, after.localLink false (.filled 1) = some later ∧
        later.timesHandled (copyOn (.filled 2)).packet = 1 := by
  -- The first copy comes in on an interface the link is not bound to and is released; the second is
  -- handled.
  have address : AddressHash.filled 1 ≠ fixedDestPathRequests := by decide +kernel
  have new : ¬ inEnd.packetCache.Knows (copyOn (.filled 2)).packet := AList.notMem_empty _
  have alone : ∀ {handler : TransportHandler} {iface : AddressHash}, handler.outLinksByLinkId = ∅ →
      handler.linkTable = ∅ → handler.Undivided false (.filled 2) (.arrives (copyOn iface) []) := by
    intro handler iface noOut noEntry
    refine ⟨fun other held => ?_, fun _ => relayData_unknown _ _ (by simp [noEntry])⟩
    simp [localLink, outLinkById, noOut] at held
  have run : Run (fun handler event after =>
      handler.CopyStep .sample false (copyOn (.filled 2)).packet event after ∧
      handler.Undivided false (.filled 2) event) inEnd
      [.arrives (copyOn (.filled 3)) [], .arrives (copyOn (.filled 2)) []] _ :=
    .next ⟨⟨.refl _, rfl, _, .passed address rfl _ (copyOn_passes new) (.linkData rfl rfl rfl), rfl⟩,
        alone rfl rfl⟩
      (.next ⟨⟨.refl _, rfl, _, .passed address rfl _
          (copyOn_passes (PacketCache.not_knows_releasePacket _ rfl)) (.linkData rfl rfl rfl), rfl⟩,
        alone rfl rfl⟩ (.done _))
  obtain ⟨later, there, count⟩ :=
    copies_handled_once_of_undivided rfl rfl (by decide) address rfl rfl new run
  exact ⟨_, _, run, later, there, count.trans (by decide)⟩

/-- `handle_data` for a copy that passes the filter, and the flush of what it sends. -/
private def receiveCopy (handler : TransportHandler) (arrival : Arrival) : Outcome TransportHandler :=
  let (passed, filtered) := handler.filterDuplicatePackets arrival.around.now arrival.packet
  if passed then do
    let (after, pending) ← filtered.handleLinkData .sample arrival.around arrival.packet arrival.iface
    return after.flush arrival.around.now pending
  else .ok filtered

/-- So a copy is received. -/
private theorem receiveCopy_step {handler after : TransportHandler} {arrival : Arrival}
    (data : arrival.packet.header.packetType = .data)
    (toLink : arrival.packet.header.destinationType = .link)
    (direct : arrival.packet.transport = none)
    (address : arrival.packet.destination ≠ fixedDestPathRequests)
    (received : receiveCopy handler arrival = .ok after) : ∃ pending,
      handler.CopyStep .sample false arrival.packet (.arrives arrival pending) after := by
  -- The computed run filters, dispatches and flushes as one step of the relation does.
  have accepted : handler.acceptsTransportPacket arrival.packet = true := by
    simp [TransportHandler.acceptsTransportPacket, direct]
  unfold receiveCopy at received
  cases filter : handler.filterDuplicatePackets arrival.around.now arrival.packet with
  | mk passed filtered =>
    rw [filter] at received
    cases passed with
    | false =>
      obtain rfl := Except.ok.inj received
      exact ⟨[], .refl _, accepted, filtered, .duplicate address accepted filter rfl, rfl⟩
    | true =>
      obtain ⟨⟨left, pending⟩, handled, flushed⟩ := bind_eq_ok.mp received
      obtain rfl := Except.ok.inj flushed
      exact ⟨pending, .refl _, accepted, left,
        .passed address accepted filtered filter (.linkData data toLink handled), rfl⟩

/-- A destination of a node for concrete runs. -/
private def ownDestination : SingleInputDestination :=
  ⟨⟨⟨.filled 0, .filled 0⟩, .filled 9⟩, true, Link.sampleSign⟩

/-- The node, before it has any link. -/
private def ownNode : LinkNode := .new ⟨.filled 7, false, false, false, false⟩

/-- The link of the node to its own destination, and the request it sends. -/
private def ownRequest : LocalLink × Packet :=
  ownNode.newLink ⟨1, .sample, fun _ _ => false⟩ ownDestination.desc

/-- A packet of this link that comes back on an interface. -/
private def comesBack (packet : Packet) (iface : AddressHash) : Arrival :=
  { copyOn iface with
    packet := packet
    secret := ⟨.filled 3, fun _ _ => List.replicate DERIVED_KEY_LENGTH 0⟩ }

/-- The proof with which the node answers its own request. -/
private def ownProof : Packet :=
  match LocalLink.newFromRequest .sample 5 (comesBack ownRequest.2 (.filled 2)).secret ownRequest.2
    ownDestination with
  | .ok link => link.provePacket
  | .error _ => ownRequest.2

/-- The node links to its own destination; request and proof come back on different interfaces. -/
private def ownEvents : List TableEvent :=
  [.other fun handler => { handler with
      singleInDestinations := AList.insert (.filled 9) ownDestination ∅ },
    .link 0 ownDestination.desc, .resume 0 ⟨1, .sample, fun _ _ => false⟩,
    .resume 0 ⟨1, .sample, fun _ _ => false⟩,
    .receive (comesBack ownRequest.2 (.filled 2)), .receive (comesBack ownProof (.filled 1))]

/-- A packet to this link. -/
private def ownData : Packet :=
  { (copyOn (.filled 2)).packet with destination := ownRequest.1.id }

/-- What the node's in-link is bound to and has handled of the packet, first and after two copies. -/
private def ownCopies : Outcome (Bool × Option (Option AddressHash × Nat) × Option Nat) := do
  let node ← ownEvents.foldlM (LinkNode.handle .sample) ownNode
  let first ← receiveCopy node.toTransportHandler (comesBack ownData (.filled 2))
  let second ← receiveCopy first (comesBack ownData (.filled 2))
  return (node.packetCache.Knows ownData,
    (node.localLink false ownData.destination).map fun link =>
      (link.attachedInterface, link.timesHandled ownData),
    (second.localLink false ownData.destination).map (·.timesHandled ownData))

open TransportHandler in
/--
A node that links to its own destination has both ends of the link, bound apart: its in-link handles
two copies of one packet.
-/
theorem copies_handled_twice :
    ∃ node events after, Run (LinkNode.Steps .sample) ownNode ownEvents node ∧
      Run (fun handler event after => handler.CopyStep .sample false ownData event after)
        node.toTransportHandler events after ∧
      ¬ node.packetCache.Knows ownData ∧
      (∃ link, node.localLink false ownData.destination = some link ∧
        link.attachedInterface = some (.filled 2) ∧ link.timesHandled ownData = 0) ∧
      ∃ later, after.localLink false ownData.destination = some later ∧
        later.timesHandled ownData = 2 := by
  -- The run of the two copies is evaluated once, and its steps are read back from the result.
  have counted : ownCopies.toOption = some (false, some (some (.filled 2), 0), some 2) := by
    decide +kernel
  have address : ownData.destination ≠ fixedDestPathRequests := by decide +kernel
  cases finished : ownCopies with
  | error fault =>
    rw [finished] at counted
    cases counted
  | ok counts =>
    rw [finished] at counted
    obtain rfl := Option.some.inj counted
    obtain ⟨node, linked, rest⟩ := bind_eq_ok.mp finished
    obtain ⟨first, once, rest⟩ := bind_eq_ok.mp rest
    obtain ⟨second, twice, rest⟩ := bind_eq_ok.mp rest
    obtain ⟨known, before, later⟩ : _ ∧ _ ∧ _ := by
      simpa only [pure, Except.pure, Except.ok.injEq, Prod.mk.injEq] using rest
    have step : ∀ {handler after : TransportHandler},
        receiveCopy handler (comesBack ownData (.filled 2)) = .ok after → ∃ event,
          handler.CopyStep .sample false ownData event after := by
      intro handler after received
      obtain ⟨pending, step⟩ := @receiveCopy_step handler after (comesBack ownData (.filled 2)) rfl rfl
        rfl address received
      exact ⟨_, step⟩
    obtain ⟨_, firstStep⟩ := step once
    obtain ⟨_, secondStep⟩ := step twice
    obtain ⟨link, here, bound⟩ := Option.map_eq_some_iff.mp before
    obtain ⟨attached, none⟩ := Prod.mk.inj bound
    refine ⟨node, _, second, Run.iff_foldlM.mpr linked,
      .next firstStep (.next secondStep (.done second)), of_decide_eq_false known, ?_, ?_⟩
    · exact ⟨link, here, attached, none⟩
    · exact Option.map_eq_some_iff.mp later

end Reticulum
