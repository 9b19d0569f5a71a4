import ReticulumSdk.Transport.HandlerLaws

/-! What a relay forwards of the data of a link: along its entry, along a path, and keepalives. -/

namespace Reticulum

/-- A keepalive with which the destination of a link answers the initiator. -/
def Packet.IsKeepaliveResponse (packet : Packet) : Prop :=
  packet.context = .keepAlive ∧ packet.data.head? = some KEEP_ALIVE_RESPONSE

/-- A keepalive without the byte that says what it is. -/
def Packet.IsEmptyKeepalive (packet : Packet) : Prop :=
  packet.context = .keepAlive ∧ packet.data = []

/-- The messages among those sent that are copies of a packet. -/
def forwards (packet : Packet) (pending : List TxMessage) : List TxMessage :=
  pending.filter fun message => SameMessage packet message.packet

namespace TransportHandler

variable {crates : Crates} {around : Surroundings} {handler after : TransportHandler}
  {now : Instant} {packet : Packet} {iface : AddressHash} {pending : List TxMessage}
  {entry : LinkEntry}

/-- An empty keepalive ends here. -/
theorem relayData_empty (empty : packet.IsEmptyKeepalive) :
    (handler.relayData now packet iface).2 = [] := by
  simp [relayData, handleKeepaliveResponse, empty.1, empty.2]

/-- A keepalive response is forwarded to where the link was requested from. -/
theorem relayData_response (response : packet.IsKeepaliveResponse)
    (found : handler.linkTable.lookup packet.destination = some entry) :
    (handler.relayData now packet iface).2 =
      [⟨.direct entry.receivedFrom, (propagate packet entry.receivedFrom).1⟩] := by
  simp [relayData, handleKeepaliveResponse, response.1, response.2, LinkTable.handleKeepalive, found,
    propagate]

/-- Other packets go through the link table. -/
private theorem handleKeepaliveResponse_other (filled : ¬ packet.IsEmptyKeepalive)
    (ordinary : ¬ packet.IsKeepaliveResponse) :
    handler.handleKeepaliveResponse now packet = (false, none, handler) := by
  -- Only an empty keepalive or a response byte is taken here.
  unfold handleKeepaliveResponse
  split
  · rename_i keepAlive
    split <;> rename_i first
    · exact absurd ⟨keepAlive, List.head?_eq_none_iff.mp first⟩ filled
    · split
      · rename_i byte isResponse
        exact absurd ⟨keepAlive, first.trans (congrArg some isResponse)⟩ ordinary
      · rfl
  · rfl

/-- A packet its entry accepts is forwarded along it. -/
theorem relayData_accepted {outbound : AddressHash} (filled : ¬ packet.IsEmptyKeepalive)
    (ordinary : ¬ packet.IsKeepaliveResponse)
    (found : handler.linkTable.lookup packet.destination = some entry)
    (validated : entry.validated = true)
    (route : entry.packetRoute packet.header.hops iface = some outbound) :
    (handler.relayData now packet iface).2 =
      [⟨.direct outbound, (propagate packet outbound).1⟩] := by
  simp [relayData, handleKeepaliveResponse_other filled ordinary,
    LinkTable.handlePacket_eq now found validated route, propagate]

/-- A packet its entry rejects is forwarded along the path to the link's destination. -/
theorem relayData_rejected (filled : ¬ packet.IsEmptyKeepalive)
    (ordinary : ¬ packet.IsKeepaliveResponse)
    (found : handler.linkTable.lookup packet.destination = some entry)
    (rejected : ¬ (entry.validated = true ∧ (entry.packetRoute packet.header.hops iface).isSome)) :
    (handler.relayData now packet iface).2 =
      if entry.validated then
        match handler.resolveNextHop packet (some entry.originalDestination) with
        | some (routed, outbound) => [⟨.direct outbound, routed⟩]
        | none => []
      else [] := by
  -- With no route of its own the packet falls back on the path to the entry's original destination.
  simp only [relayData, handleKeepaliveResponse_other filled ordinary,
    LinkTable.handlePacket_refused found rejected, LinkTable.originalDestination_eq found]
  cases entry.validated with
  | false => rfl
  | true =>
    simp only [if_true]
    cases handler.resolveNextHop packet (some entry.originalDestination) <;> rfl

/-- The path a packet takes is found exactly when there is one. -/
theorem resolveNextHop_eq (handler : TransportHandler) (packet : Packet) (lookup : AddressHash) :
    (handler.resolveNextHop packet (some lookup)).isSome =
        (handler.pathTable.map.lookup lookup).isSome ∧
      ∀ routed outbound, handler.resolveNextHop packet (some lookup) = some (routed, outbound) →
        SameMessage packet routed := by
  -- A path rewrites the header for the next hop and leaves the message itself alone.
  unfold resolveNextHop PathTable.handleInboundPacket
  cases found : handler.pathTable.map.lookup lookup with
  | none => simp [found]
  | some path =>
    simp only [Option.getD_some, found, Option.isSome_some, Option.some.injEq, Prod.mk.injEq,
      true_and]
    rintro routed outbound ⟨rfl, -⟩
    exact ⟨rfl, rfl, rfl, rfl, rfl⟩

/-- Data of a link without an entry goes nowhere. -/
theorem relayData_unknown (now : Instant) (iface : AddressHash)
    (unknown : handler.linkTable.lookup packet.destination = none) :
    (handler.relayData now packet iface).2 = [] := by
  -- Without an entry neither the link table nor the fallback has anywhere to send to.
  by_cases empty : packet.IsEmptyKeepalive
  · exact relayData_empty empty
  by_cases response : packet.IsKeepaliveResponse
  · simp [relayData, handleKeepaliveResponse, response.1, response.2, LinkTable.handleKeepalive,
      unknown]
  · simp [relayData, handleKeepaliveResponse_other empty response, LinkTable.handlePacket, unknown,
      LinkTable.originalDestination]

/-- A relay sends at most one message for a packet of a link, a copy of it. -/
theorem relayData_copies (now : Instant) (iface : AddressHash)
    (found : handler.linkTable.lookup packet.destination = some entry) :
    (handler.relayData now packet iface).2.length ≤ 1 ∧
      ∀ message ∈ (handler.relayData now packet iface).2, SameMessage packet message.packet := by
  -- Whichever branch forwards, it forwards one copy.
  by_cases empty : packet.IsEmptyKeepalive
  · simp [relayData_empty empty]
  by_cases response : packet.IsKeepaliveResponse
  · rw [relayData_response response found]
    simpa using propagate_same packet entry.receivedFrom
  by_cases accepted : entry.validated = true ∧
      (entry.packetRoute packet.header.hops iface).isSome
  · obtain ⟨outbound, route⟩ := Option.isSome_iff_exists.mp accepted.2
    rw [relayData_accepted empty response found accepted.1 route]
    simpa using propagate_same packet outbound
  · rw [relayData_rejected empty response found accepted]
    split
    · split
      · rename_i routed outbound resolved
        simpa using (resolveNextHop_eq handler packet _).2 routed outbound resolved
      · simp
    · simp

/-- When a relay forwards a packet of a link. -/
theorem relayData_ne_nil (now : Instant) (iface : AddressHash)
    (found : handler.linkTable.lookup packet.destination = some entry) :
    (handler.relayData now packet iface).2 ≠ [] ↔
      packet.IsKeepaliveResponse ∨ (¬ packet.IsEmptyKeepalive ∧ entry.validated = true ∧
        ((entry.packetRoute packet.header.hops iface).isSome ∨
          (handler.pathTable.map.lookup entry.originalDestination).isSome)) := by
  -- A response is always forwarded; other packets need a validated entry and a route or a path.
  by_cases response : packet.IsKeepaliveResponse
  · simp [relayData_response response found, response]
  by_cases empty : packet.IsEmptyKeepalive
  · simp [relayData_empty empty, response, empty]
  by_cases accepted : entry.validated = true ∧
      (entry.packetRoute packet.header.hops iface).isSome
  · obtain ⟨outbound, route⟩ := Option.isSome_iff_exists.mp accepted.2
    simp [relayData_accepted empty response found accepted.1 route, response, empty, accepted.1,
      route]
  · have resolved := (resolveNextHop_eq handler packet entry.originalDestination).1
    rw [relayData_rejected empty response found accepted, ← resolved]
    cases validated : entry.validated with
    | false => simp [response]
    | true =>
      have closed : (entry.packetRoute packet.header.hops iface).isSome = false := by
        simpa [validated] using accepted
      cases handler.resolveNextHop packet (some entry.originalDestination) <;>
        simp [response, empty, closed]

/-- The relayed data of a link follows its entry: at most one copy, of a packet the entry accepts. -/
def FollowsEntry (handler : TransportHandler) (now : Instant) (packet : Packet)
    (iface : AddressHash) (pending : List TxMessage) : Prop :=
  (forwards packet pending).length ≤ 1 ∧
    (forwards packet pending ≠ [] → (handler.linkTable.handlePacket now packet iface).1.isSome)

end TransportHandler

open TransportHandler in
/--
What `handle_data` forwards of a relayed link follows the link's entry exactly when the entry
accepts the packet, or the packet is no keepalive response and has no other way out.
-/
theorem relayed_data_follows_entry_iff {crates : Crates} {around : Surroundings}
    {handler after : TransportHandler} {packet : Packet} {iface : AddressHash}
    {pending : List TxMessage} {entry : LinkEntry} (data : packet.header.packetType = .data)
    (found : handler.linkTable.lookup packet.destination = some entry)
    (handled : handler.handleLinkData crates around packet iface = .ok (after, pending)) :
    FollowsEntry handler around.now packet iface pending ↔
      (entry.validated = true ∧ (entry.packetRoute packet.header.hops iface).isSome) ∨
        (¬ packet.IsKeepaliveResponse ∧ (packet.IsEmptyKeepalive ∨ entry.validated = false ∨
          handler.pathTable.map.lookup entry.originalDestination = none)) := by
  obtain ⟨answers, middle, routes, others, rfl⟩ := handleLinkData_ok data handled
  have held : middle.linkTable.lookup packet.destination = some entry := by
    rw [routes.linkTable, found]
  obtain ⟨single, copies⟩ := relayData_copies around.now iface held
  -- The answers of local links are no copies, and what is relayed is nothing else.
  have relayed : forwards packet (answers ++ (middle.relayData around.now packet iface).2) =
      (middle.relayData around.now packet iface).2 := by
    rw [forwards, List.filter_append, List.filter_eq_nil_iff.mpr (by simpa using others),
      List.filter_eq_self.mpr (by simpa using copies), List.nil_append]
  have accepts : (handler.linkTable.handlePacket around.now packet iface).1.isSome ↔
      entry.validated = true ∧ (entry.packetRoute packet.header.hops iface).isSome := by
    simp [LinkTable.handlePacket_isSome, found]
  have forwarded := relayData_ne_nil around.now iface held
  rw [routes.pathTable] at forwarded
  unfold FollowsEntry
  rw [relayed, accepts, forwarded]
  have route : handler.pathTable.map.lookup entry.originalDestination = none ↔
      ¬ (handler.pathTable.map.lookup entry.originalDestination).isSome := by
    simp
  have unvalidated : entry.validated = false ↔ ¬ entry.validated = true := by simp
  rw [route, unvalidated]
  simp only [single, true_and]
  grind

/-- A relay for concrete runs with one link, to a destination it has a path to. -/
private def relayOf (entry : LinkEntry) : TransportHandler :=
  { TransportHandler.new ⟨.filled 0, false, true, true, false⟩ with
    linkTable := AList.insert (.filled 7) entry ∅
    pathTable := ⟨AList.insert (.filled 9) {
      timestamp := 0
      receivedFrom := .filled 8
      hops := 1
      iface := .filled 3
      expires := 0
      pathExpiry := 0 } ∅⟩ }

/-- A data packet of that link for concrete runs. -/
private def relayedData (hops : UInt8) (context : PacketContext) (data : Bytes) : Packet where
  header := { Link.header .data with hops := hops }
  destination := .filled 7
  transport := none
  context := context
  data := data

/-- Surroundings for concrete runs. -/
private def quiet : Surroundings := ⟨5, .zero, false⟩

/-- A packet from the initiator with the right count follows the entry. -/
theorem relayed_data_follows_entry_iff_accepted :
    ∃ after pending, (relayOf .sample).handleLinkData .sample quiet (relayedData 1 .none [1])
        (.filled 1) = .ok (after, pending) ∧
      TransportHandler.FollowsEntry (relayOf .sample) 5 (relayedData 1 .none [1]) (.filled 1)
        pending := by
  -- The entry is validated and the packet comes in where it is expected.
  have found : (relayOf .sample).linkTable.lookup (relayedData 1 .none [1]).destination =
      some .sample := rfl
  have finishes : passes ((relayOf .sample).handleLinkData .sample quiet (relayedData 1 .none [1])
      (.filled 1)) (fun _ => true) = true := by
    decide
  obtain ⟨⟨after, pending⟩, handled, -⟩ := exists_of_passes finishes
  exact ⟨after, pending, handled,
    (relayed_data_follows_entry_iff rfl found handled).mpr (.inl ⟨rfl, by decide⟩)⟩

/-- A packet from the initiator with a wrong count is rejected by the entry and forwarded all the same. -/
theorem rejected_data_forwarded :
    ∃ after pending, (relayOf .sample).handleLinkData .sample quiet (relayedData 5 .none [1])
        (.filled 1) = .ok (after, pending) ∧
      pending.map (·.txType) = [.direct (.filled 3)] ∧
      ¬ TransportHandler.FollowsEntry (relayOf .sample) 5 (relayedData 5 .none [1]) (.filled 1)
        pending := by
  refine ⟨_, _, rfl, by decide, fun follows => ?_⟩
  have accepted := follows.2 (by decide)
  exact absurd accepted (by decide)

namespace LinkEntry

/-- Whether a packet with this count of hops comes from the destination's side of the link. -/
def FromDestination (entry : LinkEntry) (hops : UInt8) (receivedOn : AddressHash) : Prop :=
  if entry.Shared then hops = entry.remainingHops ∨ hops = entry.takenHops
  else receivedOn = entry.nextHopIface ∧ hops = entry.remainingHops

instance (entry : LinkEntry) (hops : UInt8) (receivedOn : AddressHash) :
    Decidable (entry.FromDestination hops receivedOn) :=
  inferInstanceAs (Decidable (if entry.Shared then _ else _))

/-- Data is routed back to the initiator when it comes from the destination's side. -/
theorem packetRoute_back (entry : LinkEntry) (hops : UInt8) (receivedOn : AddressHash) :
    entry.packetRoute hops receivedOn = some entry.receivedFrom ↔
      entry.FromDestination hops receivedOn := by
  -- Over a shared interface the hop count tells the sides apart, else the interface does.
  unfold packetRoute FromDestination
  by_cases shared : entry.Shared
  · have same : entry.nextHopIface = entry.receivedFrom := shared
    simp only [shared, same, if_true]
    split <;> rename_i counted <;> simp [counted]
  · have apart : ¬ entry.nextHopIface = entry.receivedFrom := shared
    by_cases behind : receivedOn = entry.nextHopIface
    · simp [shared, behind]
    · simp [shared, behind, apart]

end LinkEntry

namespace TransportHandler

/-- Whether `handle_packet` would forward this packet back to the initiator of its link. -/
def ForwardsBack (handler : TransportHandler) (now : Instant) (packet : Packet)
    (iface : AddressHash) : Prop :=
  ∃ entry, handler.linkTable.lookup packet.destination = some entry ∧
    (handler.linkTable.handlePacket now packet iface).1.map Prod.snd = some entry.receivedFrom

/--
A keepalive response obeys the direction rule: it is forwarded only where data would be, and
otherwise leaves the time of its entry alone.
-/
def ObeysDirection (handler : TransportHandler) (now : Instant) (packet : Packet)
    (iface : AddressHash) : Prop :=
  let (_, forwarded, after) := handler.handleKeepaliveResponse now packet
  (forwarded.isSome → handler.ForwardsBack now packet iface) ∧
    (¬ handler.ForwardsBack now packet iface →
      (after.linkTable.lookup packet.destination).map (·.timestamp) =
        (handler.linkTable.lookup packet.destination).map (·.timestamp))

/-- Data goes back to the initiator when a validated entry takes it from the destination's side. -/
theorem forwardsBack_iff {handler : TransportHandler} {packet : Packet} {entry : LinkEntry}
    (now : Instant) (iface : AddressHash)
    (found : handler.linkTable.lookup packet.destination = some entry) :
    handler.ForwardsBack now packet iface ↔
      entry.validated = true ∧ entry.FromDestination packet.header.hops iface := by
  -- The link table forwards toward the initiator exactly when the packet comes from the destination's
  -- side.
  rw [← entry.packetRoute_back]
  unfold ForwardsBack LinkTable.handlePacket
  simp only [found, Option.some.injEq, exists_eq_left']
  cases validated : entry.validated with
  | false => simp
  | true => cases route : entry.packetRoute packet.header.hops iface <;> simp [propagate]

end TransportHandler

open TransportHandler in
/--
A keepalive response obeys the direction rule exactly when the relay has no entry for its link, or
a validated one to which it comes from the destination's side.
-/
theorem keepalive_obeys_direction_iff {handler : TransportHandler} {packet : Packet}
    (now : Instant) (iface : AddressHash) (response : packet.IsKeepaliveResponse) :
    handler.ObeysDirection now packet iface ↔
      ∀ entry, handler.linkTable.lookup packet.destination = some entry →
        entry.validated = true ∧ entry.FromDestination packet.header.hops iface := by
  unfold ObeysDirection handleKeepaliveResponse
  rw [if_pos response.1, response.2]
  simp only [if_true, LinkTable.handleKeepalive]
  cases found : handler.linkTable.lookup packet.destination with
  | none => simp [ForwardsBack, found]
  | some entry =>
    -- With an entry the response is always forwarded.
    simp only [forwardsBack_iff now iface found, Option.isSome_some, true_implies,
      Option.some.injEq, forall_eq']
    constructor
    · exact fun obeys => obeys.1
    · exact fun allowed => ⟨allowed, fun refused => absurd allowed refused⟩

/-- A response from the destination with the right count obeys the rule. -/
theorem keepalive_obeys_direction_iff_destination :
    (relayOf .sample).ObeysDirection 5 (relayedData 1 .keepAlive [KEEP_ALIVE_RESPONSE])
      (.filled 2) := by
  refine (keepalive_obeys_direction_iff 5 (.filled 2) ⟨rfl, rfl⟩).mpr fun entry found => ?_
  have here : LinkEntry.sample = entry := Option.some.inj found
  rw [← here]
  exact ⟨rfl, by decide⟩

/-- A response from the initiator's own side is sent back to it, and keeps the entry alive. -/
theorem initiator_keepalive_bounced :
    let handled := (relayOf .sample).handleKeepaliveResponse 5
      (relayedData 1 .keepAlive [KEEP_ALIVE_RESPONSE])
    handled.2.1.map (·.txType) = some (.direct (.filled 1)) ∧
      (handled.2.2.linkTable.lookup (.filled 7)).map (·.timestamp) = some 5 ∧
      ¬ (relayOf .sample).ObeysDirection 5 (relayedData 1 .keepAlive [KEEP_ALIVE_RESPONSE])
        (.filled 1) := by
  -- A response from the initiator's own side is sent back where it came from.
  refine ⟨by decide, by decide, fun obeys => ?_⟩
  obtain ⟨entry, found, back⟩ := obeys.1 (by decide)
  have here : LinkEntry.sample = entry := Option.some.inj found
  rw [← here] at back
  exact absurd back (by decide)

end Reticulum
