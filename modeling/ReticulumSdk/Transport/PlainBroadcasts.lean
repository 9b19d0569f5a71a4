import Mathlib.Algebra.Order.Group.Nat
import ReticulumSdk.Base.Ledger
import ReticulumSdk.Transport.Announces

/-! Plain broadcasts: which nodes repeat them, over which interfaces, and how often a network does. -/

namespace Reticulum

open Ledger

/-- `should_rebroadcast_inbound_packet`. -/
def shouldRebroadcastInboundPacket (packet : Packet) : Bool :=
  packet.header.headerType = .type1 ∧ packet.header.propagationType = .broadcast ∧
    packet.header.packetType = .data ∧ packet.header.destinationType = .plain ∧ packet.header.hops = 1

/-- `plan_plain_broadcast_redistribution`. -/
def planPlainBroadcastRedistribution (packet : Packet) (ingressIface : AddressHash) (fromLocalClient : Bool)
    (localClients : List AddressHash) : List TxMessage :=
  if fromLocalClient then [⟨.broadcast (some ingressIface), packet⟩]
  else (localClients.filter (· ≠ ingressIface)).map fun localIface => ⟨.direct localIface, packet⟩

/-- The parts of a node that handle plain data. -/
structure BroadcastNode where
  handler : TransportHandler
  /-- `config.broadcast`. -/
  broadcast : Bool
  ifaces : IfaceManager

namespace BroadcastNode

/--
The body of the receive loop of `manage_transport` for plain data that is already one hop further and is
no path request: `handle_data` has nothing to do for it.
-/
def receive (node : BroadcastNode) (now : Instant) (packet : Packet) (iface : AddressHash) :
    List TxMessage × BroadcastNode :=
  if ¬ node.handler.acceptsTransportPacket packet then ([], node)
  else
    let (passed, handler) := node.handler.filterDuplicatePackets now packet
    let node := { node with handler := handler }
    if passed ∧ node.broadcast ∧ shouldRebroadcastInboundPacket packet then
      (planPlainBroadcastRedistribution packet iface (node.ifaces.isRpcInstanceClient iface)
        (node.ifaces.rpcInstanceClientsExcept iface), node)
    else ([], node)

/-- Where a message that repeats a broadcast goes: beyond the clients only if a client sent it. -/
inductive Repeats (node : BroadcastNode) (packet : Packet) (iface : AddressHash) (message : TxMessage) : Prop where
  | onward (client : iface ∈ node.ifaces.rpcInstanceClients) (same : message = ⟨.broadcast (some iface), packet⟩)
  | inward (localIface : AddressHash) (foreign : iface ∉ node.ifaces.rpcInstanceClients)
      (client : localIface ∈ node.ifaces.rpcInstanceClients) (apart : localIface ≠ iface)
      (same : message = ⟨.direct localIface, packet⟩)

/-- Only a broadcast on its first hop is repeated, and unchanged. -/
theorem mem_receive {node : BroadcastNode} {now : Instant} {packet : Packet} {iface : AddressHash}
    {message : TxMessage} (sent : message ∈ (node.receive now packet iface).1) :
    packet.header.hops = 1 ∧ Repeats node packet iface message := by
  -- Of the branches of the loop, one sends anything.
  unfold receive at sent
  split at sent
  · exact absurd sent List.not_mem_nil
  · dsimp only at sent
    split at sent
    · rename_i repeated
      obtain ⟨-, -, first⟩ := repeated
      have firstHop : packet.header.hops = 1 := (of_decide_eq_true first).2.2.2.2
      refine ⟨firstHop, ?_⟩
      unfold planPlainBroadcastRedistribution at sent
      split at sent
      · rename_i client
        exact .onward (of_decide_eq_true client) (List.mem_singleton.mp sent)
      · rename_i foreign
        obtain ⟨localIface, listed, same⟩ := List.mem_map.mp sent
        obtain ⟨among, apart⟩ := List.mem_filter.mp listed
        exact .inward localIface (fun client => foreign (decide_eq_true client)) (List.mem_of_mem_filter among)
          (of_decide_eq_true apart) same.symm
    · exact absurd sent List.not_mem_nil

end BroadcastNode

/-- Plain data, other than the path requests that a node takes out before. -/
structure PlainData (packet : Packet) : Prop where
  data : packet.header.packetType = .data
  plain : packet.header.destinationType = .plain
  other : packet.destination ≠ fixedDestPathRequests

/-- A packet on its way to a node, and the interface it comes in on there. -/
structure Copy where
  receiver : Nat
  iface : AddressHash
  packet : Packet
  plainData : PlainData packet

/-- The copy has not been repeated by any node. -/
def Copy.fresh (copy : Copy) : Bool := copy.packet.header.hops = 0

/-- Nodes, and what is on its way between them. -/
structure BroadcastNet where
  nodes : Nat → BroadcastNode
  air : List Copy

/-- What happens in a network: something is sent, a copy of it arrives or is lost, or a node does other things. -/
inductive NetEvent where
  | send (copy : Copy)
  | deliver (place : Nat) (now : Instant)
  | lose (place : Nat)
  | change (place : Nat) (node : BroadcastNode)

namespace BroadcastNet

variable (hears : Nat → TxMessage → List (Nat × AddressHash))

/-- The answer of the node that a copy arrives at. -/
def answer (net : BroadcastNet) (copy : Copy) (now : Instant) : List TxMessage × BroadcastNode :=
  (net.nodes copy.receiver).receive now copy.packet.received copy.iface

/-- What arrives with its first hop was fresh on its way. -/
private theorem fresh_of_received {packet : Packet} (first : packet.received.header.hops = 1) :
    packet.header.hops = 0 := by
  -- The count of hops does not run over.
  unfold Packet.received at first
  dsimp only at first
  split at first
  · exact absurd first (by decide)
  · have sum : packet.header.hops + 1 = 0 + 1 := first
    exact (UInt8.add_left_inj 1).mp sum

/-- What is repeated arrived fresh, and goes beyond the clients of a node only if one of them sent it. -/
theorem repeats_fresh {net : BroadcastNet} {copy : Copy} {now : Instant} {message : TxMessage}
    (sent : message ∈ (net.answer copy now).1) : copy.fresh = true ∧
      BroadcastNode.Repeats (net.nodes copy.receiver) copy.packet.received copy.iface message := by
  obtain ⟨first, repeated⟩ := BroadcastNode.mem_receive sent
  exact ⟨decide_eq_true (fresh_of_received first), repeated⟩

/-- What a node repeats is the packet that arrived, which is still plain data. -/
theorem answer_plain {net : BroadcastNet} {copy : Copy} {now : Instant} {message : TxMessage}
    (sent : message ∈ (net.answer copy now).1) :
    message.packet = copy.packet.received ∧ PlainData message.packet := by
  have same : message.packet = copy.packet.received := by
    cases (BroadcastNode.mem_receive sent).2 with
    | onward _ same => exact congrArg TxMessage.packet same
    | inward _ _ _ _ same => exact congrArg TxMessage.packet same
  exact ⟨same, same ▸ ⟨copy.plainData.data, copy.plainData.plain, copy.plainData.other⟩⟩

/-- The copies of what a node sends, one for each interface that hears it. -/
def copiesOf (net : BroadcastNet) (copy : Copy) (now : Instant) : List Copy :=
  (net.answer copy now).1.attach.flatMap fun message => (hears copy.receiver message.val).map fun there =>
    ⟨there.1, there.2, message.val.packet, (answer_plain message.property).2⟩

/-- The network after an event. -/
def step (net : BroadcastNet) : NetEvent → BroadcastNet
  | .send copy => { net with air := net.air ++ [copy] }
  | .lose place => { net with air := net.air.eraseIdx place }
  | .change place node => { net with nodes := Function.update net.nodes place node }
  | .deliver place now =>
    match net.air[place]? with
    | none => net
    | some copy =>
      { nodes := Function.update net.nodes copy.receiver (net.answer copy now).2
        air := net.air.eraseIdx place ++ copiesOf hears net copy now }

/-- A node repeats what arrives. -/
def repeats (net : BroadcastNet) : NetEvent → Nat
  | .deliver place now =>
    match net.air[place]? with
    | none => 0
    | some copy => if (net.answer copy now).1 = [] then 0 else 1
  | _ => 0

/-- A new broadcast is sent. -/
def begins (_ : BroadcastNet) : NetEvent → Nat
  | .send copy => if copy.fresh then 1 else 0
  | _ => 0

/-- The copies on their way that a node may still repeat. -/
def pending (net : BroadcastNet) : Nat := net.air.countP Copy.fresh

/-- No copy of what a node repeats is fresh. -/
theorem copiesOf_stale (net : BroadcastNet) (copy : Copy) (now : Instant) :
    (copiesOf hears net copy now).countP Copy.fresh = 0 := by
  -- A repeated packet has a hop behind it.
  rw [List.countP_eq_zero]
  intro next member
  obtain ⟨⟨message, sent⟩, -, heard⟩ := List.mem_flatMap.mp member
  obtain ⟨there, -, rfl⟩ := List.mem_map.mp heard
  intro fresh
  have none : message.packet.header.hops = 0 := of_decide_eq_true fresh
  rw [(answer_plain sent).1, (BroadcastNode.mem_receive sent).1] at none
  exact absurd none (by decide)

/-- A copy that is taken out of the air was one of those on their way. -/
private theorem countP_eraseIdx {air : List Copy} {place : Nat} {copy : Copy} (found : air[place]? = some copy) :
    (air.eraseIdx place).countP Copy.fresh + (if copy.fresh then 1 else 0) = air.countP Copy.fresh := by
  obtain ⟨inside, here⟩ := List.getElem?_eq_some_iff.mp found
  -- The list is what stands in front of it, the copy, and what stands behind.
  have whole : air = air.take place ++ (copy :: air.drop (place + 1)) := by
    rw [← here, List.getElem_cons_drop, List.take_append_drop]
  have counted := congrArg (List.countP Copy.fresh) whole
  rw [List.countP_append, List.countP_cons] at counted
  rw [List.eraseIdx_eq_take_drop_succ, List.countP_append, counted, Nat.add_assoc]

/-- An event that repeats a copy uses up a fresh one. -/
theorem step_pending (net : BroadcastNet) (event : NetEvent) :
    repeats net event + pending (step hears net event) ≤ pending net + begins net event := by
  -- Only a delivery can repeat something, and it takes its copy out of the air.
  cases event with
  | send copy =>
    have added : pending (step hears net (.send copy)) = pending net + begins net (.send copy) := by
      simp only [pending, step, begins, List.countP_append, List.countP_singleton]
    rw [added]
    exact (zero_add _).le
  | change place node => exact (zero_add _).le
  | lose place =>
    exact (zero_add _).le.trans (List.Sublist.countP_le (List.eraseIdx_sublist _ _))
  | deliver place now =>
    cases found : net.air[place]? with
    | none =>
      simp only [repeats, step, found, begins, zero_add, add_zero, le_refl]
    | some copy =>
      have taken := countP_eraseIdx found
      have stale := copiesOf_stale hears net copy now
      simp only [repeats, step, found, begins, pending, List.countP_append, stale, add_zero]
      split
      · omega
      · rename_i answered
        obtain ⟨message, sent⟩ := List.exists_mem_of_ne_nil _ answered
        rw [if_pos (repeats_fresh sent).1] at taken
        omega

/--
Over any run of a network, whoever hears whom, plain broadcasts are repeated no more often than copies of
them are sent, and what is repeated at its end arrived fresh and goes where its origin allows.
-/
theorem broadcasts_die_out (net : BroadcastNet) (events : List NetEvent) :
    tally (step hears) repeats net events ≤ pending net + tally (step hears) begins net events ∧
      ∀ copy now message, message ∈ ((events.foldl (step hears) net).answer copy now).1 →
        copy.fresh = true ∧ BroadcastNode.Repeats ((events.foldl (step hears) net).nodes copy.receiver)
          copy.packet.received copy.iface message := by
  have spent := @tally_le _ _ _ (step hears) net events _ _ _ _ pending repeats begins (fun _ => True)
    (fun net event _ => ⟨trivial, step_pending hears net event⟩) trivial
  exact ⟨(Nat.le_add_right _ _).trans spent, fun copy now message sent => repeats_fresh sent⟩

end BroadcastNet

end Reticulum
