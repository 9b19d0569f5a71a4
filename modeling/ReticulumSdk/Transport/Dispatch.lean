import ReticulumSdk.Base.Run
import ReticulumSdk.Transport.Receive
import ReticulumSdk.Transport.RelayData

/-! Which of its own links a node gives a packet to, and what it sends of their answers. -/

namespace Reticulum

/-- The proof a link returned from `handle_packet_from`. -/
def returnedProof : Outcome (LinkHandleResult × LocalLink) → List Packet
  | .ok (.messageReceived (some proof), _) => [proof]
  | _ => []

/-- The proofs among the messages to be sent. -/
def proofsIn (pending : List TxMessage) : List Packet :=
  (pending.map (·.packet)).filter fun packet => packet.header.packetType = .proof

/-- The proof of a message, or of a resource. -/
def Packet.IsLinkProof (packet : Packet) : Prop :=
  packet.header.packetType = .proof ∧ (packet.context = .none ∨ packet.context = .resourceProof)

/-- The data of a link. -/
def Packet.IsLinkData (packet : Packet) : Prop :=
  packet.header.packetType = .data ∧ packet.header.destinationType = .link

namespace TransportHandler

/-- What the in-link a packet is addressed to returns. -/
def inLinkProof (crates : Crates) (handler : TransportHandler) (arrival : Arrival) : List Packet :=
  match handler.inLinks.lookup arrival.packet.destination with
  | some link => returnedProof
      (link.handlePacketFrom crates arrival.around.now arrival.packet false arrival.iface)
  | none => []

/-- What the out-link a packet is addressed to returns. -/
def outLinkProof (crates : Crates) (handler : TransportHandler) (arrival : Arrival) : List Packet :=
  match handler.outLinkById arrival.packet.destination with
  | some link => returnedProof
      (link.handlePacketFrom crates arrival.around.now arrival.packet true arrival.iface)
  | none => []

/-- The proofs the links return that a dispatcher calls for a packet. -/
def returnedProofs (crates : Crates) (handler : TransportHandler) (arrival : Arrival) :
    List Packet :=
  match arrival.packet.header.packetType with
  | .data =>
    if arrival.packet.header.destinationType = .link then
      handler.inLinkProof crates arrival ++ handler.outLinkProof crates arrival
    else []
  | .proof => handler.outLinkProof crates arrival
  | _ => []

variable {crates : Crates} {around : Surroundings} {handler after : TransportHandler}
  {packet : Packet} {iface : AddressHash} {pending : List TxMessage} {arrival : Arrival}

/-- An in-link is given its data, and what it returns is sent. -/
theorem dataToInLink_links (data : arrival.packet.header.packetType = .data)
    (handled : handler.dataToInLink crates arrival.around arrival.packet arrival.iface =
      .ok (after, pending)) :
    (after.outLink = handler.outLink ∧ after.outLinksByLinkId = handler.outLinksByLinkId) ∧
      proofsIn pending = handler.inLinkProof crates arrival ∧
      ∀ link, handler.inLinks.lookup arrival.packet.destination = some link → ∃ result linkAfter,
        link.handlePacketFrom crates arrival.around.now arrival.packet false arrival.iface =
          .ok (result, linkAfter) ∧
        after.inLinks.lookup arrival.packet.destination = some linkAfter := by
  unfold dataToInLink at handled
  unfold inLinkProof
  split at handled <;> rename_i found
  · obtain ⟨rfl, rfl⟩ := Prod.mk.inj (Except.ok.inj handled)
    rw [found]
    exact ⟨⟨rfl, rfl⟩, rfl, fun link here => by cases here⟩
  · rename_i inLink
    obtain ⟨⟨result, linkAfter⟩, called, finished⟩ := bind_eq_ok.mp handled
    rw [found]
    simp only [called, Option.some.injEq, forall_eq']
    dsimp only at finished
    have written : (handler.inLinks.insert arrival.packet.destination linkAfter).lookup
        arrival.packet.destination = some linkAfter := AList.lookup_insert _
    -- What is prepared for sending is the packet itself, and no link changes by it.
    have sent : ∀ {answer : Packet}, answer.header.destinationType = .link →
        let prepared := prepare { handler with
          inLinks := handler.inLinks.insert arrival.packet.destination linkAfter }
            arrival.around.now answer
        (prepared.2.outLink = handler.outLink ∧
          prepared.2.outLinksByLinkId = handler.outLinksByLinkId) ∧
        proofsIn [prepared.1] =
          [answer].filter (fun packet => packet.header.packetType = .proof) ∧
        prepared.2.inLinks.lookup arrival.packet.destination = some linkAfter := by
      intro answer link prepared
      have same := prepare_frame { handler with
        inLinks := handler.inLinks.insert arrival.packet.destination linkAfter }
          arrival.around.now answer
      refine ⟨⟨congrArg (·.outLink) same, congrArg (·.outLinksByLinkId) same⟩, ?_,
        (congrArg (·.inLinks.lookup arrival.packet.destination) same).trans written⟩
      unfold proofsIn
      rw [List.map_singleton, (prepare_link _ _ link).1]
    split at finished
    · obtain ⟨rfl, rfl⟩ := Prod.mk.inj (Except.ok.inj finished)
      exact ⟨⟨rfl, rfl⟩, rfl, _, _, rfl, written⟩
    · obtain ⟨rfl, rfl⟩ := Prod.mk.inj (Except.ok.inj finished)
      obtain ⟨kept, proofs, here⟩ := sent
        (show (linkAfter.keepAlivePacket KEEP_ALIVE_RESPONSE).header.destinationType = .link from rfl)
      exact ⟨kept, proofs, _, _, rfl, here⟩
    · rename_i proof
      have built := (LocalLink.handlePacketFrom_proof data called).2
      obtain ⟨rfl, rfl⟩ := Prod.mk.inj (Except.ok.inj finished)
      obtain ⟨kept, proofs, here⟩ := sent (show proof.header.destinationType = .link by
        rw [built]
        rfl)
      have proves : proof.header.packetType = .proof := by
        rw [built]
        rfl
      rw [List.filter_singleton] at proofs
      simp only [proves, decide_true, cond_true] at proofs
      exact ⟨kept, proofs, _, _, rfl, here⟩
    · rename_i silent
      obtain ⟨rfl, rfl⟩ := Prod.mk.inj (Except.ok.inj finished)
      refine ⟨⟨rfl, rfl⟩, ?_, _, _, rfl, written⟩
      unfold returnedProof
      split
      · rename_i proof linkAfter' answered
        obtain ⟨rfl, -⟩ := Prod.mk.inj (Except.ok.inj answered)
        exact absurd rfl (silent proof)
      · rfl

/-- An out-link is given its data. -/
theorem dataToOutLink_links
    (handled : handler.dataToOutLink crates around packet iface = .ok after) :
    after.inLinks = handler.inLinks ∧
      ∀ link, handler.outLinkById packet.destination = some link → ∃ result linkAfter,
        link.handlePacketFrom crates around.now packet true iface = .ok (result, linkAfter) ∧
          after.outLinkById packet.destination = some linkAfter := by
  -- The link is written back where it was found, whatever it answered.
  unfold dataToOutLink at handled
  split at handled <;> rename_i found
  · obtain rfl := Except.ok.inj handled
    exact ⟨rfl, fun link here => by simp [outLinkById, found] at here⟩
  · rename_i place
    obtain ⟨⟨result, linkAfter⟩, called, finished⟩ := bind_eq_ok.mp handled
    have same : SameLinks (handler.setOutLink place linkAfter) after := by
      dsimp only at finished
      split at finished <;>
      · obtain rfl := Except.ok.inj finished
        exact ⟨rfl, rfl, rfl⟩
    refine ⟨same.inLinks, fun link here => ⟨result, linkAfter, ?_, ?_⟩⟩
    · rw [outLinkById, found] at here
      rw [← Option.some.inj here]
      exact called
    · rw [same.outLinkById, setOutLink_outLinkById found]

/-- The proofs of two lists of messages. -/
private theorem proofsIn_append (front back : List TxMessage) :
    proofsIn (front ++ back) = proofsIn front ++ proofsIn back := by
  simp [proofsIn]

/-- No relayed data is a proof. -/
private theorem proofsIn_relayData (data : packet.header.packetType = .data) (now : Instant)
    (iface : AddressHash) : proofsIn (handler.relayData now packet iface).2 = [] := by
  -- What is relayed keeps the packet's own type, which is data.
  unfold proofsIn
  refine List.filter_eq_nil_iff.mpr fun copy member => ?_
  obtain ⟨message, sent, rfl⟩ := List.mem_map.mp member
  cases found : handler.linkTable.lookup packet.destination with
  | none =>
    have silent : (handler.relayData now packet iface).2 = [] := relayData_unknown now iface found
    simp [silent] at sent
  | some entry =>
    have same := (relayData_copies now iface found).2 message sent
    simp [same.packetType, data]

/-- `handle_data` gives a link's data to the in-link and the out-link, and sends the in-link's proof. -/
theorem handleLinkData_links (data : arrival.packet.header.packetType = .data)
    (handled : handler.handleLinkData crates arrival.around arrival.packet arrival.iface =
      .ok (after, pending)) :
    proofsIn pending = handler.inLinkProof crates arrival ∧
    (∀ link, handler.inLinks.lookup arrival.packet.destination = some link → ∃ result linkAfter,
      link.handlePacketFrom crates arrival.around.now arrival.packet false arrival.iface =
        .ok (result, linkAfter) ∧
      after.inLinks.lookup arrival.packet.destination = some linkAfter) ∧
    (∀ link, handler.outLinkById arrival.packet.destination = some link → ∃ result linkAfter,
      link.handlePacketFrom crates arrival.around.now arrival.packet true arrival.iface =
        .ok (result, linkAfter) ∧
      after.outLinkById arrival.packet.destination = some linkAfter) := by
  -- The in-link stage makes the proofs; the out-link stage drops them, and relaying adds none.
  obtain ⟨⟨first, answers⟩, answered, rest⟩ := bind_eq_ok.mp handled
  obtain ⟨second, passed, finished⟩ := bind_eq_ok.mp rest
  obtain ⟨⟨outLink, byLinkId⟩, proofs, given⟩ := dataToInLink_links data answered
  obtain ⟨inLinks, taken⟩ := dataToOutLink_links passed
  have same := relayData_sameLinks second arrival.around.now arrival.packet arrival.iface
  have ended : after = (second.relayData arrival.around.now arrival.packet arrival.iface).1 ∧
      pending = answers ++ (second.relayData arrival.around.now arrival.packet arrival.iface).2 := by
    obtain ⟨rfl, rfl⟩ := Prod.mk.inj (Except.ok.inj finished)
    exact ⟨rfl, rfl⟩
  rw [ended.1, ended.2]
  refine ⟨?_, fun link here => ?_, fun link here => ?_⟩
  · rw [proofsIn_append, proofs, proofsIn_relayData data, List.append_nil]
  · obtain ⟨result, linkAfter, called, kept⟩ := given link here
    exact ⟨result, linkAfter, called, by rw [same.inLinks, inLinks, kept]⟩
  · have unchanged : first.outLinkById arrival.packet.destination = some link := by
      unfold outLinkById at here ⊢
      rw [outLink, byLinkId, here]
    obtain ⟨result, linkAfter, called, kept⟩ := taken link unchanged
    exact ⟨result, linkAfter, called, by rw [same.outLinkById, kept]⟩

/--
A packet is dispatched completely: the data and the proofs of a link reach every link of that
address which is bound to the interface, and every proof a link returns is to be sent.
-/
structure Complete (crates : Crates) (handler : TransportHandler) (arrival : Arrival)
    (after : TransportHandler) (pending : List TxMessage) : Prop where
  inLink : arrival.packet.IsLinkData ∨ arrival.packet.IsLinkProof →
    ∀ link, handler.inLinks.lookup arrival.packet.destination = some link →
      link.attachedInterface = some arrival.iface →
        ∃ linkAfter, after.inLinks.lookup arrival.packet.destination = some linkAfter ∧
          linkAfter.handled = link.handled ++ [arrival.packet]
  outLink : arrival.packet.IsLinkData ∨ arrival.packet.IsLinkProof →
    ∀ link, handler.outLinkById arrival.packet.destination = some link →
      link.attachedInterface = some arrival.iface →
        ∃ linkAfter, after.outLinkById arrival.packet.destination = some linkAfter ∧
          linkAfter.handled = link.handled ++ [arrival.packet]
  answered : (handler.returnedProofs crates arrival).Subperm (pending.map (·.packet))

/--
The dispatchers' blind spots are avoided: no in-link is bound to where a proof for it arrives, and
no out-link answers data with a proof.
-/
structure Covered (crates : Crates) (handler : TransportHandler) (arrival : Arrival) : Prop where
  proof : arrival.packet.IsLinkProof →
    ∀ link, handler.inLinks.lookup arrival.packet.destination = some link →
      link.attachedInterface ≠ some arrival.iface
  data : arrival.packet.IsLinkData →
    ∀ link, handler.outLinkById arrival.packet.destination = some link →
      link.answersWithProof crates arrival.packet arrival.iface = false

/-- A link that is given a packet from the interface it is bound to has handled it. -/
private theorem handled_of_bound {link linkAfter : LocalLink} {outLink : Bool} {now : Instant}
    {result : LinkHandleResult} (bound : link.attachedInterface = some iface)
    (called : link.handlePacketFrom crates now packet outLink iface = .ok (result, linkAfter)) :
    linkAfter.handled = link.handled ++ [packet] := by
  rw [LocalLink.handlePacketFrom_handled called,
    if_pos (LocalLink.acceptsInterface_of_bound bound)]

/-- A call whose result is no proof of a message returns none. -/
private theorem returnedProof_nil {result : LinkHandleResult} {linkAfter : LocalLink}
    (silent : ∀ proof, result ≠ .messageReceived (some proof)) :
    returnedProof (.ok (result, linkAfter)) = [] := by
  unfold returnedProof
  split
  · rename_i proof linkAfter' answered
    obtain ⟨rfl, -⟩ := Prod.mk.inj (Except.ok.inj answered)
    exact absurd rfl (silent proof)
  · rfl

/-- Link data that no out-link proves is dispatched completely. -/
private theorem complete_of_data (data : arrival.packet.header.packetType = .data)
    (link : arrival.packet.header.destinationType = .link)
    (handled : handler.handleLinkData crates arrival.around arrival.packet arrival.iface =
      .ok (after, pending)) (covered : handler.Covered crates arrival) :
    handler.Complete crates arrival after pending := by
  -- Both ends are reached where they exist; the out-link's proof is the one that may be missing.
  obtain ⟨proofs, given, taken⟩ := handleLinkData_links data handled
  refine ⟨fun _ inLink here bound => ?_, fun _ outLink here bound => ?_, ?_⟩
  · obtain ⟨result, linkAfter, called, kept⟩ := given inLink here
    exact ⟨linkAfter, kept, handled_of_bound bound called⟩
  · obtain ⟨result, linkAfter, called, kept⟩ := taken outLink here
    exact ⟨linkAfter, kept, handled_of_bound bound called⟩
  · -- A covered arrival is one for which the out-link makes no proof.
    have silent : handler.outLinkProof crates arrival = [] := by
      unfold outLinkProof
      cases found : handler.outLinkById arrival.packet.destination with
      | none => rfl
      | some outLink =>
        obtain ⟨result, linkAfter, called, -⟩ := taken outLink found
        simp only [called]
        refine returnedProof_nil fun proof answered => ?_
        rw [answered] at called
        have proves := (LocalLink.handlePacketFrom_proof data called).1
        rw [covered.data ⟨data, link⟩ outLink found] at proves
        cases proves
    simp only [returnedProofs, data, link, if_true, silent, List.append_nil, ← proofs]
    exact List.filter_sublist.subperm

/-- A proof for no in-link is dispatched completely. -/
private theorem complete_of_proof (proof : arrival.packet.header.packetType = .proof)
    (handled : handler.handleProof crates arrival.around arrival.packet arrival.radio
      arrival.iface = .ok (after, pending)) (covered : handler.Covered crates arrival) :
    handler.Complete crates arrival after pending := by
  -- The proof path hands the packet to the out-link only, and to no in-link.
  obtain ⟨-, reached⟩ := handleProof_links handled
  refine ⟨fun kind link here bound => ?_, fun _ link here bound => ?_, ?_⟩
  · have isProof : arrival.packet.IsLinkProof := kind.resolve_left fun data => by
      have := data.1
      rw [proof] at this
      cases this
    exact absurd bound (covered.proof isProof link here)
  · obtain ⟨result, linkAfter, called, kept⟩ := reached link here
    exact ⟨linkAfter, kept, handled_of_bound bound called⟩
  · have silent : handler.outLinkProof crates arrival = [] := by
      unfold outLinkProof
      cases found : handler.outLinkById arrival.packet.destination with
      | none => rfl
      | some link =>
        obtain ⟨result, linkAfter, called, -⟩ := reached link found
        simp only [called]
        exact returnedProof_nil fun answer => LocalLink.handlePacketFrom_of_proof proof called
    simp only [returnedProofs, proof, silent]
    exact List.nil_subperm

/-- Packets that are neither data nor proofs of a link are always dispatched completely. -/
private theorem complete_of_other (notData : ¬ arrival.packet.IsLinkData)
    (notProof : arrival.packet.header.packetType ≠ .proof) :
    handler.Complete crates arrival after pending := by
  -- Neither data nor a proof of a link: no link end is due the packet.
  have neither : ¬ (arrival.packet.IsLinkData ∨ arrival.packet.IsLinkProof) :=
    fun kind => kind.elim notData fun isProof => notProof isProof.1
  refine ⟨fun kind => absurd kind neither, fun kind => absurd kind neither, ?_⟩
  have silent : handler.returnedProofs crates arrival = [] := by
    unfold returnedProofs
    split <;> rename_i kind
    · exact if_neg fun link => notData ⟨kind, link⟩
    · exact absurd kind notProof
    · rfl
  rw [silent]
  exact List.nil_subperm

/-- A covered packet is dispatched completely. -/
theorem complete_of_covered (dispatched : handler.Dispatches crates arrival after pending)
    (covered : handler.Covered crates arrival) : handler.Complete crates arrival after pending := by
  -- Only link data and proofs have link ends to reach.
  cases dispatched with
  | linkRequest kind handled =>
    exact complete_of_other (fun data => by simp [data.1] at kind) (by simp [kind])
  | proof kind handled => exact complete_of_proof kind handled covered
  | linkData kind link handled => exact complete_of_data kind link handled covered
  | announce kind => exact complete_of_other (fun data => by simp [data.1] at kind) (by simp [kind])
  | otherData kind other => exact complete_of_other (fun data => other data.2) (by simp [kind])

/-- A proof dispatched completely was for no in-link. -/
private theorem covered_of_proof (proof : arrival.packet.header.packetType = .proof)
    (handled : handler.handleProof crates arrival.around arrival.packet arrival.radio
      arrival.iface = .ok (after, pending))
    (complete : handler.Complete crates arrival after pending) : handler.Covered crates arrival where
  proof isProof link here bound := by
    obtain ⟨linkAfter, kept, grown⟩ := complete.inLink (.inr isProof) link here bound
    -- The in-links are as they were, so nothing was handled.
    rw [(handleProof_links handled).1, here] at kept
    rw [← Option.some.inj kept] at grown
    simp at grown
  data isData := by
    have data := isData.1
    rw [proof] at data
    cases data

/-- Data dispatched completely was proved by no out-link. -/
private theorem covered_of_data (data : arrival.packet.header.packetType = .data)
    (link : arrival.packet.header.destinationType = .link)
    (handled : handler.handleLinkData crates arrival.around arrival.packet arrival.iface =
      .ok (after, pending)) (complete : handler.Complete crates arrival after pending) :
    handler.Covered crates arrival where
  proof isProof := by
    have proof := isProof.1
    rw [data] at proof
    cases proof
  data _ outLink found := by
    obtain ⟨proofs, -, taken⟩ := handleLinkData_links data handled
    by_contra answers
    rw [Bool.not_eq_false] at answers
    obtain ⟨result, linkAfter, called, -⟩ := taken outLink found
    have returned := LocalLink.handlePacketFrom_of_answersWithProof data answers called
    have proved : handler.outLinkProof crates arrival =
        [outLink.messageProof arrival.packet.hash] := by
      simp only [outLinkProof, found, called, returned, returnedProof]
    -- The out-link's proof is one more than the proofs that are sent.
    have sent := complete.answered.filter fun packet => packet.header.packetType = .proof
    have shorter : ((handler.returnedProofs crates arrival).filter fun packet =>
        packet.header.packetType = .proof).length ≤ (proofsIn pending).length := sent.length_le
    have proofsOnly : ((proofsIn pending).filter fun packet =>
        packet.header.packetType = .proof) = proofsIn pending := by
      simp [proofsIn]
    have one : ([outLink.messageProof arrival.packet.hash].filter fun packet =>
        packet.header.packetType = .proof).length = 1 := rfl
    simp only [returnedProofs, data, link, if_true, proved, ← proofs, List.filter_append,
      List.length_append, proofsOnly, one] at shorter
    exact Nat.not_succ_le_self _ shorter

/-- A packet dispatched completely was covered. -/
theorem covered_of_complete (dispatched : handler.Dispatches crates arrival after pending)
    (complete : handler.Complete crates arrival after pending) : handler.Covered crates arrival := by
  -- Only link data and proofs are dispatched to links; the other packets are covered trivially.
  have other (notData : ¬ arrival.packet.IsLinkData)
      (notProof : arrival.packet.header.packetType ≠ .proof) : handler.Covered crates arrival :=
    ⟨fun isProof => absurd isProof.1 notProof, fun isData => absurd isData notData⟩
  cases dispatched with
  | linkRequest kind handled => exact other (fun data => by simp [data.1] at kind) (by simp [kind])
  | proof kind handled => exact covered_of_proof kind handled complete
  | linkData kind link handled => exact covered_of_data kind link handled complete
  | announce kind => exact other (fun data => by simp [data.1] at kind) (by simp [kind])
  | otherData kind differs => exact other (fun data => differs data.2) (by simp [kind])

/-- One event at a node. Apart from its dispatchers the node may change in any way. -/
def DispatchStep (crates : Crates) (handler : TransportHandler) (event : NodeEvent)
    (after : TransportHandler) : Prop :=
  match event with
  | .arrives arrival pending => handler.Dispatches crates arrival after pending
  | .other => True

/-- The packet of an event, if it is one, is dispatched completely. -/
def CompleteEvent (crates : Crates) (handler : TransportHandler) (event : NodeEvent)
    (after : TransportHandler) : Prop :=
  match event with
  | .arrives arrival pending => handler.Complete crates arrival after pending
  | .other => True

/-- The packet of an event, if it is one, is covered. -/
def CoveredEvent (crates : Crates) (handler : TransportHandler) (event : NodeEvent) : Prop :=
  match event with
  | .arrives arrival _ => handler.Covered crates arrival
  | .other => True

end TransportHandler

open TransportHandler in
/--
In a run of a node every packet is dispatched completely exactly when no proof arrives for an
in-link on the interface it is bound to and no data for an out-link that answers it with a proof.
-/
theorem dispatch_complete_iff_covered (crates : Crates) {start final : TransportHandler}
    {events : List NodeEvent} :
    Run (fun handler event after => handler.DispatchStep crates event after ∧
        handler.CompleteEvent crates event after) start events final ↔
      Run (fun handler event after => handler.DispatchStep crates event after ∧
        handler.CoveredEvent crates event) start events final := by
  refine Run.congr fun handler event after => and_congr_right fun step => ?_
  cases event with
  | arrives arrival pending => exact ⟨covered_of_complete step, complete_of_covered step⟩
  | other => exact Iff.rfl

/-- A node for concrete runs that was asked for a link. -/
private def asked : TransportHandler :=
  { TransportHandler.new ⟨.filled 0, false, false, true, true⟩ with
    inLinks := AList.insert (.filled 1) (.sample (.filled 2)) ∅ }

/-- A node for concrete runs that asked for the link. -/
private def asking : TransportHandler :=
  { TransportHandler.new ⟨.filled 0, false, false, true, true⟩ with
    outLink := fun _ => .sample (.filled 2)
    outLinksByLinkId := AList.insert (.filled 1) 0 ∅ }

/-- A packet for that link, on the interface both are bound to. -/
private def arrivalOf (packetType : PacketType) (context : PacketContext) (data : Bytes) : Arrival where
  packet := {
    header := { Link.header packetType with hops := 1 }
    destination := .filled 1
    transport := none
    context := context
    data := data }
  iface := .filled 2
  radio := ⟨none, none⟩
  around := ⟨5, .zero, false⟩
  secret := ⟨.filled 0, fun _ _ => []⟩

/-- A message of one byte on the link: a vector of zeros, the padded byte and its authentication. -/
private def oneByte : Bytes :=
  let signed := List.replicate IV_KEY_SIZE 0 ++ 9 :: List.replicate 15 15
  signed ++ [159, 213, 153, 182, 210, 159, 37, 191, 35, 154, 39, 148, 125, 227, 19, 133, 179, 211,
    122, 129, 181, 209, 3, 33, 79, 158, 111, 212, 64, 255, 205, 92]

/--
The proof of a resource does not reach the in-link it is for, and the proof with which an out-link
answers a message is not sent.
-/
theorem link_proofs_lost :
    (∃ after pending, asked.Dispatches .sample (arrivalOf .proof .resourceProof []) after pending ∧
      ¬ asked.Complete .sample (arrivalOf .proof .resourceProof []) after pending ∧
      (after.inLinks.lookup (.filled 1)).map (·.handled) = some []) ∧
    ∃ after pending, asking.Dispatches .sample (arrivalOf .data .none oneByte) after pending ∧
      ¬ asking.Complete .sample (arrivalOf .data .none oneByte) after pending ∧
      (asking.outLinkProof .sample (arrivalOf .data .none oneByte)).length = 1 ∧
      proofsIn pending = [] := by
  -- A resource proof never reaches the in-link; an out-link's proof of a message is made and dropped.
  constructor
  · refine ⟨_, _, .proof rfl rfl, fun complete => ?_, by decide⟩
    have covered := TransportHandler.covered_of_complete (.proof rfl rfl) complete
    exact covered.proof ⟨rfl, .inr rfl⟩ _ rfl rfl
  · have answers : (LocalLink.sample (.filled 2)).answersWithProof .sample
        (arrivalOf .data .none oneByte).packet (.filled 2) = true := by decide +kernel
    have finishes : passes (asking.handleLinkData .sample (arrivalOf .data .none oneByte).around
        (arrivalOf .data .none oneByte).packet (.filled 2)) (fun _ => true) = true := by
      decide +kernel
    obtain ⟨⟨after, pending⟩, handled, -⟩ := exists_of_passes finishes
    refine ⟨after, pending, .linkData rfl rfl handled, fun complete => ?_, by decide +kernel,
      (TransportHandler.handleLinkData_links rfl handled).1⟩
    have covered := TransportHandler.covered_of_complete (.linkData rfl rfl handled) complete
    have silent := covered.data ⟨rfl, rfl⟩ (.sample (.filled 2)) rfl
    exact Bool.false_ne_true (silent.symm.trans answers)

end Reticulum
