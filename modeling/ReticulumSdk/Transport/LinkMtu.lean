import ReticulumSdk.Base.Run
import ReticulumSdk.Link.Effects
import ReticulumSdk.Link.Lifecycle
import ReticulumSdk.Transport.Rewrites

/-! The size of a link: its request signals it, the way limits it, and the proof confirms it. -/

namespace Reticulum

/-- The size a link request signals, if it signals one. -/
def Packet.signalledMtu (packet : Packet) : Option Nat :=
  if packet.data.length = PUBLIC_KEY_LENGTH * 2 + LINK_MTU_SIZE then
    some (mtuFromSignallingBytes (packet.data.drop (PUBLIC_KEY_LENGTH * 2)))
  else none

/-- One node on the way of a link request, with the route it takes there. -/
structure RequestHop where
  handler : TransportHandler
  inbound : AddressHash
  outbound : AddressHash
  remainingHops : UInt8
  nextHop : AddressHash

namespace RequestHop

/-- What a node sends on for a request that reaches it: one more hop, clamped, and stamped. -/
def forward (hop : RequestHop) (request : Packet) : Packet :=
  TransportHandler.restamp (hop.handler.requestFor request.received hop.inbound (some hop.outbound))
    hop.remainingHops hop.nextHop

/-- A size that one of the two interfaces of a node is known to carry, where the node discovers sizes. -/
def Carries (hop : RequestHop) (mtu : Nat) : Prop :=
  hop.handler.config.linkMtuDiscovery = true ∧
    (hop.handler.hwMtu hop.inbound = some mtu ∨ hop.handler.hwMtu hop.outbound = some mtu)

end RequestHop

/-- A request after the nodes of a route. -/
def walk (route : List RequestHop) (request : Packet) : Packet :=
  route.foldl (fun request hop => hop.forward request) request

/-- A packet that signals no larger size than another, and none when that signals none. -/
def NoLarger (packet other : Packet) : Prop :=
  ∀ mtu, packet.signalledMtu = some mtu → ∃ before, other.signalledMtu = some before ∧ mtu ≤ before

namespace TransportHandler

variable {handler : TransportHandler} {packet : Packet} {inbound : AddressHash}
  {outbound : Option AddressHash}

/-- A clamped request signals no more than before, nor than what its interfaces carry. -/
theorem clampLinkRequestMtu_signalled {mtu : Nat}
    (signalled : (handler.clampLinkRequestMtu packet inbound outbound).signalledMtu = some mtu) :
    (∃ before, packet.signalledMtu = some before ∧ mtu ≤ before) ∧
      (∀ known, handler.hwMtu inbound = some known → mtu ≤ known) ∧
      ∀ iface known, outbound = some iface → handler.hwMtu iface = some known → mtu ≤ known := by
  unfold clampLinkRequestMtu at signalled
  split at signalled
  · -- A request without a size has none to clamp.
    rename_i sizeless
    rw [Packet.signalledMtu, if_neg sizeless] at signalled
    cases signalled
  · rename_i sized
    have length := not_not.mp sized
    have before : packet.signalledMtu =
        some (mtuFromSignallingBytes (packet.data.drop (PUBLIC_KEY_LENGTH * 2))) := if_pos length
    dsimp only at signalled
    split at signalled
    · -- An unknown size strips the signal.
      have stripped : (stripLinkMtuSignalling packet).data.length ≠
          PUBLIC_KEY_LENGTH * 2 + LINK_MTU_SIZE := by
        simp only [stripLinkMtuSignalling, List.length_take, length]
        decide
      rw [Packet.signalledMtu, if_neg stripped] at signalled
      cases signalled
    · rename_i carried outer
      have keys : (packet.data.take (PUBLIC_KEY_LENGTH * 2)).length = PUBLIC_KEY_LENGTH * 2 := by
        rw [List.length_take, length]
        decide
      have small := mtuFromSignallingBytes_lt (packet.data.drop (PUBLIC_KEY_LENGTH * 2))
      have limit : mtu = min (min (mtuFromSignallingBytes (packet.data.drop (PUBLIC_KEY_LENGTH * 2)))
          ((handler.hwMtu inbound).getD
            (mtuFromSignallingBytes (packet.data.drop (PUBLIC_KEY_LENGTH * 2))))) carried := by
        split at signalled
        · rename_i clamped
          rw [Packet.signalledMtu, if_pos (by
            rw [List.length_append, keys]
            rfl)] at signalled
          rw [List.drop_left' keys, mtuFromSignallingBytes_linkSignallingBytes (by omega)] at signalled
          exact (Option.some.inj signalled).symm
        · rename_i unclamped
          rw [before] at signalled
          have same := Option.some.inj signalled
          omega
      refine ⟨⟨_, before, by omega⟩, fun known found => ?_, fun iface known direct found => ?_⟩
      · rw [found, Option.getD_some] at limit
        omega
      · subst direct
        have same : carried = known := Option.some.inj (outer.symm.trans found)
        omega

/-- So does a request as a node uses it, whether or not it discovers sizes. -/
theorem requestFor_noLarger :
    NoLarger (handler.requestFor packet inbound outbound) packet := by
  intro mtu signalled
  unfold requestFor at signalled
  split at signalled
  · exact (clampLinkRequestMtu_signalled signalled).1
  · exact ⟨mtu, signalled, le_rfl⟩

/-- A stamp for the next hop touches neither the address of a request nor its data. -/
theorem restamp_keeps (packet : Packet) (remainingHops : UInt8) (transport : AddressHash) :
    (restamp packet remainingHops transport).linkId = packet.linkId ∧
      (restamp packet remainingHops transport).data = packet.data := by
  unfold restamp
  split <;> exact ⟨linkId_congr _ _ rfl rfl rfl rfl rfl, rfl⟩

/-- Clamping keeps the address of a request. -/
theorem requestFor_linkId :
    (handler.requestFor packet inbound outbound).linkId = packet.linkId := by
  obtain ⟨data, clamped, keys⟩ := handler.requestFor_keeps packet inbound outbound
  rw [clamped]
  exact linkId_congr _ _ rfl rfl keys rfl rfl

/-- A node that passes a request on sends what the hop of its route forwards. -/
theorem handleLinkRequest_forward {crates : Crates} {secret : LinkSecret} {now : Instant}
    {request : Packet} (remote : handler.singleInDestinations.lookup request.destination = none) :
    ∀ message ∈ (handler.handleLinkRequest crates secret now request.received inbound).2,
      ∃ hop : RequestHop, hop.handler = handler ∧ hop.inbound = inbound ∧
        message.txType = .direct hop.outbound ∧ message.packet = hop.forward request := by
  intro message sent
  obtain ⟨egress, direct, passed⟩ := handler.handleLinkRequest_restamps
    crates secret now (show handler.singleInDestinations.lookup request.received.destination = none
      from remote) message sent
  -- Something is sent only along a path, whose entry names the stamp.
  cases route : handler.pathTable.nextHopRoute request.destination with
  | none =>
    have elsewhere : handler.singleInDestinations.lookup request.received.destination = none := remote
    have pathless : handler.pathTable.nextHopRoute request.received.destination = none := route
    simp [handleLinkRequest, elsewhere, pathless] at sent
  | some entry =>
    obtain ⟨nextHop, nextIface, pathHops⟩ := entry
    obtain ⟨data, clamped, -⟩ := handler.requestFor_keeps request.received inbound (some egress)
    have found : handler.pathTable.nextHopRoute
        (handler.requestFor request.received inbound (some egress)).destination =
          some (nextHop, nextIface, pathHops) := by
      rw [clamped]
      exact route
    simp only [PathTable.restampRequest, found] at passed
    exact ⟨⟨handler, inbound, egress, if pathHops = 0 then 0 else pathHops - 1, nextHop⟩, rfl, rfl,
      direct, (Prod.mk.inj passed).1⟩

end TransportHandler

namespace RequestHop

/-- A hop keeps the address of a request, and does not raise its size. -/
theorem forward_keeps (hop : RequestHop) (request : Packet) :
    (hop.forward request).linkId = request.linkId ∧ NoLarger (hop.forward request) request := by
  -- Neither the stamp of the hop count nor the clamped signalling enters the link's identifier.
  obtain ⟨stampedId, stampedData⟩ := TransportHandler.restamp_keeps
    (hop.handler.requestFor request.received hop.inbound (some hop.outbound)) hop.remainingHops
    hop.nextHop
  constructor
  · rw [forward, stampedId, TransportHandler.requestFor_linkId]
    exact linkId_congr _ _ rfl rfl rfl rfl rfl
  · intro mtu signalled
    rw [Packet.signalledMtu, forward, stampedData] at signalled
    have lowered : NoLarger (hop.handler.requestFor request.received hop.inbound (some hop.outbound))
        request.received := TransportHandler.requestFor_noLarger
    exact lowered mtu signalled

/-- Where sizes are discovered, a hop leaves a size its interfaces carry. -/
theorem forward_carried {hop : RequestHop} {request : Packet} {mtu known : Nat}
    (carries : hop.Carries known) (signalled : (hop.forward request).signalledMtu = some mtu) :
    mtu ≤ known := by
  -- A hop that knows an interface's unit clamps the signalled one to it.
  have data := (TransportHandler.restamp_keeps
    (hop.handler.requestFor request.received hop.inbound (some hop.outbound)) hop.remainingHops
    hop.nextHop).2
  rw [Packet.signalledMtu, forward, data, TransportHandler.requestFor, if_pos carries.1] at signalled
  obtain ⟨-, inner, outer⟩ := TransportHandler.clampLinkRequestMtu_signalled signalled
  rcases carries.2 with known | known
  · exact inner _ known
  · exact outer _ _ rfl known

end RequestHop

namespace NoLarger

variable {first second third : Packet}

/-- A size is no larger than itself. -/
theorem refl (packet : Packet) : NoLarger packet packet := fun mtu signalled => ⟨mtu, signalled, le_rfl⟩

/-- Sizes that never grow do not grow over two steps. -/
theorem trans (last : NoLarger third second) (earlier : NoLarger second first) :
    NoLarger third first := by
  intro mtu signalled
  obtain ⟨middle, there, less⟩ := last mtu signalled
  obtain ⟨start, here, lesser⟩ := earlier middle there
  exact ⟨start, here, Nat.le_trans less lesser⟩

end NoLarger

/-- A route keeps the address of a request, and does not raise its size. -/
theorem walk_keeps (route : List RequestHop) (request : Packet) :
    (walk route request).linkId = request.linkId ∧ NoLarger (walk route request) request := by
  -- Hop by hop: each keeps the identifier and lowers the size or leaves it.
  induction route generalizing request with
  | nil => exact ⟨rfl, .refl request⟩
  | cons hop route ih =>
    obtain ⟨same, less⟩ := hop.forward_keeps request
    obtain ⟨rest, lesser⟩ := ih (hop.forward request)
    exact ⟨rest.trans same, lesser.trans less⟩

/-- A size at the end of a route is carried by every interface known on it. -/
theorem walk_carried {route : List RequestHop} {request : Packet} {mtu known : Nat}
    {hop : RequestHop} (member : hop ∈ route) (carries : hop.Carries known)
    (signalled : (walk route request).signalledMtu = some mtu) : mtu ≤ known := by
  obtain ⟨front, back, rfl⟩ := List.append_of_mem member
  rw [walk, List.foldl_append, List.foldl_cons] at signalled
  -- The size has not grown since it left this hop.
  obtain ⟨there, left, less⟩ := (walk_keeps back _).2 mtu signalled
  exact Nat.le_trans less (hop.forward_carried carries left)

end Reticulum
