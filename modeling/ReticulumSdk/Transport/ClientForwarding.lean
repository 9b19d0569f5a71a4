import ReticulumSdk.Destination.Ratchet
import ReticulumSdk.Transport.AnnounceLaws

/-! Which announces reach the clients that share a node's instance, and which are answered at all. -/

namespace Reticulum

namespace AnnounceNode

variable {agreement : KeyAgreement} {profile : Profile} {curves : Curves}
variable {node after : AnnounceNode agreement} {arrival : AnnounceArrival} {request : PathRequest}
variable {outbound : Outbound}

/-- The announce is valid, and not of a blackholed identity. -/
def Accepts (curves : Curves) (node : AnnounceNode agreement) (packet : Packet) : Prop :=
  ∃ destination appData, DestinationAnnounce.validate curves packet = .ok (destination, appData) ∧
    destination.identity.addressHash ∉ node.blackholeTable.entries

/-- The announce gets to the validation of `handle_announce`, and passes it. -/
def Validated (curves : Curves) (node : AnnounceNode agreement) (packet : Packet) : Prop :=
  ∃ destination appData, node.Validates curves packet destination appData

/-- A request is passed on: its interface has paths searched for, and none is searched for yet. -/
def Searches (node : AnnounceNode agreement) (arrival : AnnounceArrival) (request : PathRequest) : Prop :=
  (searchesFor arrival.ifaces arrival.iface).1 = true ∧
    arrival.ifaces.ingressRecordPr arrival.iface = false ∧
    (node.pathRequests.discovery.lookup request.destination).all
      (fun pending => pending.timeout ≤ arrival.now) = true

/-- A request for a remote destination is answered at once, or passed on. -/
def AnswersRemote (node : AnnounceNode agreement) (arrival : AnnounceArrival) (request : PathRequest) :
    Prop :=
  node.retransmit = true ∧ match node.pathTable.get request.destination with
    | none => node.Searches arrival request
    | some path => request.requestingTransport ≠ some path.receivedFrom ∧
      ¬ node.announceTable.Knows request.destination ∧
      (path.announce.isSome ∨ node.Searches arrival request)

/-- A packet is a path request that something is sent for. -/
def Answers (node : AnnounceNode agreement) (arrival : AnnounceArrival) : Prop :=
  ∃ request pathRequests,
    node.pathRequests.decode arrival.now arrival.packet.data = (some request, pathRequests) ∧
    (request.destination ∈ node.singleInDestinations ∨
      { node with pathRequests := pathRequests }.AnswersRemote arrival request)

/-- What is broadcast where it cannot be sent to any one is sent. -/
private theorem sent_or_broadcast (sent : List TxMessage) (message : TxMessage) :
    (if sent.isEmpty = true then [message] else sent) ≠ [] := by
  cases sent <;> simp

/-- A search is passed on over some interface. -/
private theorem searchPath_silent :
    (node.searchPath arrival request).1 = [] ↔ ¬ node.Searches arrival request := by
  -- A search that is wanted and not limited sends something, unless one is pending.
  unfold searchPath Searches
  dsimp only
  by_cases wanted : (searchesFor arrival.ifaces arrival.iface).1 = true ∧
      ¬ arrival.ifaces.ingressRecordPr arrival.iface = true
  · rw [if_pos wanted]
    unfold PathRequests.generateRecursive PathRequests.allowRecursive
    by_cases searching : (node.pathRequests.discovery.lookup request.destination).any
        (fun pending => pending.timeout > arrival.now) = true
    · rw [if_pos searching]
      -- A pending search is one whose timeout has not come.
      refine iff_of_true rfl fun all => ?_
      cases found : node.pathRequests.discovery.lookup request.destination with
      | none => simp [found] at searching
      | some pending =>
        simp only [found, Option.any_some, Option.all_some, decide_eq_true_eq] at searching all
        exact absurd all.2.2 (Nat.not_le.mpr searching)
    · rw [if_neg searching]
      refine iff_of_false ?_ (not_not.mpr ⟨wanted.1, by simpa using wanted.2, ?_⟩)
      · exact sent_or_broadcast _ _
      · cases found : node.pathRequests.discovery.lookup request.destination with
        | none => rfl
        | some pending =>
          simpa [found] using searching
  · rw [if_neg wanted]
    exact iff_of_true rfl fun all => wanted ⟨all.1, by simp [all.2.1]⟩

/-- Nothing is sent for a packet that is no path request to be answered. -/
private theorem handlePathRequest_silent :
    (node.handlePathRequest arrival).1 = [] ↔ ¬ node.Answers arrival := by
  unfold handlePathRequest Answers
  obtain ⟨decoded, pathRequests⟩ :=
    node.pathRequests.decode arrival.now arrival.packet.data
  cases decoded with
  | none => exact iff_of_true rfl (by simp)
  | some request =>
    have once : (∃ found requests, (some request, pathRequests) = (some found, requests) ∧
        (found.destination ∈ node.singleInDestinations ∨
          { node with pathRequests := requests }.AnswersRemote arrival found)) ↔
        (request.destination ∈ node.singleInDestinations ∨
          { node with pathRequests := pathRequests }.AnswersRemote arrival request) := by
      constructor
      · rintro ⟨_, _, same, answers⟩
        obtain ⟨found, rfl⟩ := Prod.mk.inj same
        obtain rfl := Option.some.inj found
        exact answers
      · exact fun answers => ⟨request, pathRequests, rfl, answers⟩
    rw [once]
    dsimp only
    cases own : node.singleInDestinations.lookup request.destination with
    | some destination =>
      -- A destination of the node's own is answered for.
      exact iff_of_false (by simp) (not_not.mpr (.inl (Table.mem_of_lookup own)))
    | none =>
      rw [or_iff_right (AList.lookup_eq_none.mp own)]
      unfold AnswersRemote
      by_cases relays : node.retransmit = true
      · rw [if_pos relays, and_iff_right relays]
        cases node.pathTable.get request.destination with
        | none => exact searchPath_silent
        | some path =>
          dsimp only
          by_cases circular : request.requestingTransport = some path.receivedFrom
          · rw [if_pos circular]
            -- The path leads back, which is never answered.
            exact iff_of_true rfl fun all => all.1 circular
          · rw [if_neg circular, and_iff_right circular]
            generalize (if arrival.ifaces.interfaceMode arrival.iface = .roaming then
              PATH_REQUEST_GRACE + PATH_REQUEST_RG else PATH_REQUEST_GRACE) = grace
            cases scheduled : (node.announceTable.addResponse arrival.now arrival.random
                request.destination arrival.iface path.hops grace).1 with
            | true =>
              rw [if_pos rfl]
              exact iff_of_true rfl fun all => all.1 (AnnounceTable.addResponse_fst.mp scheduled)
            | false =>
              -- Nothing could be scheduled, so the table has no announce of it.
              have unknown : ¬ node.announceTable.Knows request.destination := fun known => by
                rw [AnnounceTable.addResponse_fst.mpr known] at scheduled
                cases scheduled
              rw [if_neg Bool.false_ne_true, and_iff_right unknown]
              cases path.announce with
              | some announce => exact iff_of_false (by simp) (by simp)
              | none =>
                -- Without a cached announce it is left to the search.
                refine searchPath_silent.trans (not_congr ?_)
                simp only [Option.isSome_none, Bool.false_eq_true, false_or]
      · rw [if_neg relays]
        exact iff_of_true rfl fun both => relays both.1

/-- Dropped or with no client to reach, or validated; or a path request that is not answered. -/
def ForwardsSafely (curves : Curves) (node : AnnounceNode agreement) (arrival : AnnounceArrival) : Prop :=
  if arrival.packet.destination = fixedDestPathRequests then
    node.Accepts curves arrival.packet ∨ ¬ node.Answers arrival
  else (node.filterDuplicatePackets arrival.now arrival.packet).1 = false ∨
    arrival.ifaces.rpcInstanceClientsExcept arrival.iface = [] ∨ node.Validated curves arrival.packet

/-- What is validated is accepted. -/
private theorem Validated.accepts (validated : node.Validated curves arrival.packet) :
    node.Accepts curves arrival.packet := by
  obtain ⟨destination, appData, validates⟩ := validated
  exact ⟨destination, appData, validates.valid, validates.unlisted⟩

/-- The duplicate filter changes nothing that announces are validated by. -/
private theorem validated_filtered : (node.filterDuplicatePackets arrival.now arrival.packet).2.Validated
    curves arrival.packet ↔ node.Validated curves arrival.packet := by
  constructor <;>
  · rintro ⟨destination, appData, foreign, valid, unlisted⟩
    exact ⟨destination, appData, foreign, valid, unlisted⟩

/-- What is not validated is not answered. -/
private theorem handleAnnounce_silent {pending : List TxMessage}
    (handled : node.handleAnnounce profile curves arrival = .ok (pending, after))
    (invalid : ¬ node.Validated curves arrival.packet) : pending = [] := by
  -- What is answered was admitted, and what is admitted was validated.
  cases admitted : (node.admitAnnounce curves arrival).1 with
  | none =>
    rw [handleAnnounce_dropped admitted] at handled
    exact (Prod.mk.inj (Except.ok.inj handled)).1.symm
  | some told => exact absurd ⟨_, _, (admitAnnounce_eq_some.mp admitted).toValidates⟩ invalid

/-- There is a copy for each client. -/
private theorem forwardToClients_silent : node.forwardToClients arrival = [] ↔
    arrival.ifaces.rpcInstanceClientsExcept arrival.iface = [] := List.map_eq_nil_iff

end AnnounceNode

/--
Clients see only announces that the node validated, and nothing is sent for what it does not accept,
exactly when the announce was dropped before, reaches no client, or was validated; or when it was
taken for a path request and not answered.
-/
theorem clients_see_validated_iff {agreement : KeyAgreement} {profile : Profile} {curves : Curves}
    {node after : AnnounceNode agreement} {arrival : AnnounceArrival}
    {outbound : AnnounceNode.Outbound}
    (received : node.receive profile curves arrival = .ok (outbound, after)) :
    ((outbound.forwarded ≠ [] → node.Validated curves arrival.packet) ∧
        (¬ node.Accepts curves arrival.packet → outbound.handled = [] ∧ outbound.forwarded = [])) ↔
      node.ForwardsSafely curves arrival := by
  unfold AnnounceNode.receive at received
  unfold AnnounceNode.ForwardsSafely
  by_cases request : arrival.packet.destination = fixedDestPathRequests
  · -- A path request is answered without looking at what kind of packet it is.
    rw [if_pos request] at received ⊢
    obtain ⟨rfl, -⟩ := Prod.mk.inj (Except.ok.inj received)
    have silent := @AnnounceNode.handlePathRequest_silent agreement node arrival
    constructor
    · rintro ⟨-, rejected⟩
      by_cases accepts : node.Accepts curves arrival.packet
      · exact .inl accepts
      · exact .inr (silent.mp (rejected accepts).1)
    · rintro safe
      refine ⟨fun sent => absurd rfl sent, fun rejects => ⟨?_, rfl⟩⟩
      exact silent.mpr (safe.resolve_left rejects)
  · have transported : node.handler.acceptsTransportPacket arrival.packet = true := by
      simp [TransportHandler.acceptsTransportPacket, arrival.announces]
    rw [if_neg request, if_neg (not_not.mpr transported)] at received
    rw [if_neg request]
    dsimp only at received
    cases passed : (node.filterDuplicatePackets arrival.now arrival.packet).1 with
    | false =>
      rw [if_neg (by simp [passed])] at received
      obtain ⟨rfl, -⟩ := Prod.mk.inj (Except.ok.inj received)
      -- What the filter drops goes nowhere.
      exact iff_of_true ⟨fun sent => absurd rfl sent, fun _ => ⟨rfl, rfl⟩⟩ (.inl rfl)
    | true =>
      rw [if_pos passed] at received
      obtain ⟨⟨pending, left⟩, handled, done⟩ := bind_eq_ok.mp received
      obtain ⟨rfl, -⟩ := Prod.mk.inj (Except.ok.inj done)
      rw [or_iff_right (by simp)]
      -- Past the filter, what the clients are sent depends on the packet type alone.
      have clients := @AnnounceNode.forwardToClients_silent agreement left arrival
      constructor
      · rintro ⟨validated, -⟩
        by_cases unsent : left.forwardToClients arrival = []
        · exact .inl (clients.mp unsent)
        · exact .inr (validated unsent)
      · rintro (unreached | validated)
        · have unsent := clients.mpr unreached
          refine ⟨fun sent => absurd unsent sent, fun rejects => ⟨?_, unsent⟩⟩
          exact AnnounceNode.handleAnnounce_silent handled fun validated =>
            rejects (AnnounceNode.validated_filtered.mp validated).accepts
        · exact ⟨fun _ => validated, fun rejects => absurd validated.accepts rejects⟩

/-- A valid announce arrives at a node with one client, for concrete runs. -/
private def wellFormed : AnnounceArrival := .sample .sample 2 0 100 [.filled 8]

/-- A packet that says it is an announce and is empty, at the same node. -/
private def malformed : AnnounceArrival :=
  { wellFormed with
    packet := { wellFormed.packet with data := [] }
    announces := rfl }

/-- It is forwarded to the client. -/
theorem clients_see_malformed : ∃ outbound after,
    AnnounceNode.sample.receive .debug .sample malformed = .ok (outbound, after) ∧
      ¬ AnnounceNode.sample.Accepts .sample malformed.packet ∧ outbound.forwarded ≠ [] := by
  have finished : passes (AnnounceNode.sample.receive .debug .sample malformed)
      (fun result => result.1.forwarded ≠ []) = true := by decide +kernel
  obtain ⟨⟨outbound, after⟩, received, forwarded⟩ := exists_of_passes finished
  refine ⟨outbound, after, received, ?_, of_decide_eq_true forwarded⟩
  rintro ⟨destination, appData, valid, -⟩
  cases valid

/-- A valid announce is forwarded as well, and this is what clients are to see. -/
theorem clients_see_validated_iff_valid : ∃ outbound after,
    AnnounceNode.sample.receive .debug .sample wellFormed = .ok (outbound, after) ∧
      outbound.forwarded ≠ [] ∧ AnnounceNode.sample.Validated .sample wellFormed.packet := by
  have finished : passes (AnnounceNode.sample.receive .debug .sample wellFormed)
      (fun result => result.1.forwarded ≠ []) = true := by decide +kernel
  obtain ⟨⟨outbound, after⟩, received, forwarded⟩ := exists_of_passes finished
  have admits : AnnounceNode.sample.Admits .sample wellFormed LocalDestination.sample.announced [] :=
    AnnounceNode.admitAnnounce_eq_some.mp (by decide +kernel)
  have sent : outbound.forwarded ≠ [] := by simpa using forwarded
  refine ⟨outbound, after, received, sent, ((clients_see_validated_iff received).mpr ?_).1 sent⟩
  unfold AnnounceNode.ForwardsSafely
  rw [if_neg (by decide +kernel)]
  exact .inr (.inr ⟨_, _, admits.toValidates⟩)

end Reticulum
