import ReticulumSdk.Serde
import ReticulumSdk.Transport.RelayChain

/-! The three rewrites with which a packet is stamped for its way along a path. -/

namespace Reticulum

/-- What a rewrite chose for the way on: three fields of the packet, and the interface. -/
structure Onward where
  headerType : HeaderType
  propagationType : PropagationType
  transport : Option AddressHash
  egress : Option AddressHash
  deriving DecidableEq

/-- What the output of a rewrite says of the way on. -/
def onward (output : Packet × Option AddressHash) : Onward where
  headerType := output.1.header.headerType
  propagationType := output.1.header.propagationType
  transport := output.1.transport
  egress := output.2

/--
An input stamped for the way on: nothing else changed but the access code, the header says
whether there is a transport address, and the packet keeps its hash and can be written.
-/
structure Stamped (input output : Packet) : Prop where
  kept : output = { input with
    header := { input.header with
      ifacFlag := output.header.ifacFlag
      headerType := output.header.headerType
      propagationType := output.header.propagationType }
    ifac := output.ifac
    transport := output.transport }
  consistent : output.TransportConsistent
  hash : output.hash = input.hash
  serializes : input.IfacConsistent → ∀ room, output.wireLength ≤ room →
    ∃ buffer, output.serialize (.new room) = .ok buffer

/-- The route and the stamp `handle_link_request` takes for a request that is not for the node. -/
def PathTable.restampRequest (table : PathTable) (packet : Packet) : Packet × Option AddressHash :=
  match table.nextHopRoute packet.destination with
  | some (nextHop, nextIface, pathHops) =>
    -- `saturating_sub`.
    (TransportHandler.restamp packet (if pathHops = 0 then 0 else pathHops - 1) nextHop,
      some nextIface)
  | none => (packet, none)

namespace Stamped

variable {input output : Packet}

/-- A rewrite of these fields alone stamps the input. -/
theorem of_kept (kept : output = { input with
      header := { input.header with
        ifacFlag := output.header.ifacFlag
        headerType := output.header.headerType
        propagationType := output.header.propagationType }
      ifac := output.ifac
      transport := output.transport })
    (consistent : output.TransportConsistent)
    (ifac : input.IfacConsistent → output.IfacConsistent) : Stamped input output where
  kept := kept
  consistent := consistent
  -- The hash reads none of the rewritten fields.
  hash := SameMessage.hash (by rw [kept]; exact ⟨rfl, rfl, rfl, rfl, rfl⟩)
  serializes sound _ fits := Packet.serialize_ok (ifac sound) consistent fits

end Stamped

namespace PathTable

variable {table : PathTable} {packet : Packet} {entry : PathEntry}

/-- The stamp of an entry names a transport address exactly with a header of the second type. -/
theorem stamp_consistent (entry : PathEntry) :
    entry.stamp.1 = .type2 ↔ entry.stamp.2.2.isSome = true := by
  unfold PathEntry.stamp
  split <;> simp

/-- `handle_packet` stamps a packet of the first type by the entry of its destination. -/
theorem handlePacket_stamped (found : table.map.lookup packet.destination = some entry)
    (type1 : packet.header.headerType = .type1)
    (addressed : packet.header.destinationType = .single ∨ packet.header.destinationType = .link)
    (carried : packet.header.packetType ≠ .announce) :
    onward (table.handlePacket packet) =
        ⟨entry.stamp.1, entry.stamp.2.1, entry.stamp.2.2, some entry.iface⟩ ∧
      Stamped packet (table.handlePacket packet).1 := by
  -- A single or link destination with a known path is stamped; a packet of type 1 was not stamped
  -- before.
  have routed : ¬ (packet.header.destinationType = .plain ∨ packet.header.destinationType = .group) := by
    rcases addressed with single | link
    · simp [single]
    · simp [link]
  have fresh : packet.header.headerType ≠ .type2 := by simp [type1]
  simp only [handlePacket, carried, if_false, routed, found, fresh]
  exact ⟨rfl, .of_kept rfl (stamp_consistent entry) id⟩

/-- `handle_inbound_packet` stamps any packet by that entry. -/
theorem handleInboundPacket_stamped (found : table.map.lookup packet.destination = some entry) :
    onward (table.handleInboundPacket packet none) =
        ⟨entry.stamp.1, entry.stamp.2.1, entry.stamp.2.2, some entry.iface⟩ ∧
      Stamped packet (table.handleInboundPacket packet none).1 := by
  simp only [handleInboundPacket, Option.getD_none, found]
  refine ⟨rfl, .of_kept rfl (stamp_consistent entry) fun _ flagged => ?_⟩
  cases flagged

/-- So does the stamp of a link request, whose remaining hops are one less than the path's. -/
theorem restampRequest_stamped (found : table.map.lookup packet.destination = some entry) :
    onward (table.restampRequest packet) =
        ⟨entry.stamp.1, entry.stamp.2.1, entry.stamp.2.2, some entry.iface⟩ ∧
      Stamped packet (table.restampRequest packet).1 := by
  -- More hops remain behind the next one exactly when the path is longer than one hop.
  have remaining : (if entry.hops = 0 then (0 : UInt8) else entry.hops - 1) > 0 ↔ entry.hops > 1 := by
    have value := entry.hops.toNat_lt
    split
    · rename_i direct
      simp [direct]
    · rename_i some
      have nonzero : entry.hops.toNat ≠ 0 := fun zero => some (UInt8.toNat_inj.mp zero)
      have one : (1 : UInt8) ≤ entry.hops := by
        rw [UInt8.le_iff_toNat_le]
        change 1 ≤ _
        omega
      rw [gt_iff_lt, gt_iff_lt, UInt8.lt_iff_toNat_lt, UInt8.lt_iff_toNat_lt,
        UInt8.toNat_sub_of_le _ _ one]
      change 0 < entry.hops.toNat - 1 ↔ 1 < entry.hops.toNat
      omega
  simp only [restampRequest, nextHopRoute, found, Option.map_some, TransportHandler.restamp, remaining]
  by_cases far : entry.hops > 1
  · simp only [far, if_true, onward, PathEntry.stamp, true_and]
    exact .of_kept rfl (by simp [Packet.TransportConsistent]) id
  · simp only [far, if_false, onward, PathEntry.stamp, true_and]
    exact .of_kept rfl (by simp [Packet.TransportConsistent]) id

end PathTable

/-- A node that passes a link request on sends it clamped and stamped along the path. -/
theorem TransportHandler.handleLinkRequest_restamps {handler : TransportHandler} {packet : Packet}
    {inbound : AddressHash} (crates : Crates) (secret : LinkSecret) (now : Instant)
    (remote : handler.singleInDestinations.lookup packet.destination = none) :
    ∀ message ∈ (handler.handleLinkRequest crates secret now packet inbound).2, ∃ egress,
      message.txType = .direct egress ∧ (message.packet, some egress) =
        handler.pathTable.restampRequest (handler.requestFor packet inbound (some egress)) := by
  intro message sent
  simp only [handleLinkRequest, remote] at sent
  split at sent
  · rename_i nextHop nextIface pathHops route
    -- Clamping leaves the destination, by which the route is looked up again.
    obtain ⟨data, clamped, -⟩ := handler.requestFor_keeps packet inbound (some nextIface)
    unfold handleLinkRequestAsIntermediate at sent
    split at sent
    · cases sent
    · split at sent
      · cases sent
      · obtain rfl := List.mem_singleton.mp sent
        refine ⟨nextIface, rfl, ?_⟩
        simp only [PathTable.restampRequest, clamped, route]
        -- What the link table remembers of the request does not clamp it.
        exact congrArg (fun forwarded => (restamp forwarded _ nextHop, some nextIface)) clamped
  · cases sent

/--
The three rewrites agree on a packet that is no announce: they choose the same way on for it, and
each leaves a packet with its own hash that can be written.
-/
theorem path_rewrites_agree {table : PathTable} {packet : Packet} {entry : PathEntry}
    (found : table.map.lookup packet.destination = some entry)
    (type1 : packet.header.headerType = .type1)
    (addressed : packet.header.destinationType = .single ∨ packet.header.destinationType = .link)
    (carried : packet.header.packetType ≠ .announce) :
    (onward (table.handlePacket packet)).egress = some entry.iface ∧
    onward (table.handleInboundPacket packet none) = onward (table.handlePacket packet) ∧
    onward (table.restampRequest packet) = onward (table.handlePacket packet) ∧
    Stamped packet (table.handlePacket packet).1 ∧
    Stamped packet (table.handleInboundPacket packet none).1 ∧
    Stamped packet (table.restampRequest packet).1 ∧
    ∀ (crates : Crates) (secret : LinkSecret) (handler : TransportHandler) (now : Instant)
      (inbound : AddressHash), handler.pathTable = table →
      handler.singleInDestinations.lookup packet.destination = none →
      ∀ message ∈ (handler.handleLinkRequest crates secret now packet inbound).2, ∃ egress,
        message.txType = .direct egress ∧
        onward (message.packet, some egress) = onward (table.handlePacket packet) ∧
        Stamped (handler.requestFor packet inbound (some egress)) message.packet := by
  obtain ⟨outboundWay, outbound⟩ := PathTable.handlePacket_stamped found type1 addressed carried
  obtain ⟨inboundWay, received⟩ := PathTable.handleInboundPacket_stamped found
  obtain ⟨requestWay, restamped⟩ := PathTable.restampRequest_stamped found
  refine ⟨by rw [outboundWay], by rw [inboundWay, outboundWay], by rw [requestWay, outboundWay],
    outbound, received, restamped, ?_⟩
  rintro crates secret handler now inbound rfl remote message sent
  obtain ⟨egress, direct, passed⟩ :=
    handler.handleLinkRequest_restamps crates secret now remote message sent
  -- The clamped request has the destination of the request, and so its entry.
  obtain ⟨data, clamped, -⟩ := handler.requestFor_keeps packet inbound (some egress)
  have held : handler.pathTable.map.lookup
      (handler.requestFor packet inbound (some egress)).destination = some entry := by
    rw [clamped]
    exact found
  obtain ⟨way, stamped⟩ := PathTable.restampRequest_stamped held
  rw [← passed] at way stamped
  exact ⟨egress, direct, by rw [way, outboundWay], stamped⟩

/-- A path of two hops, for concrete runs. -/
private def twoHops : PathTable where
  map := AList.singleton (.filled 1) {
    timestamp := 0
    receivedFrom := .filled 2
    hops := 2
    iface := .filled 3
    expires := 0
    pathExpiry := 0 }

/-- A packet to its end that is no packet of the second type yet. -/
private def towardEnd (packetType : PacketType) : Packet where
  header := { packetType := packetType }
  destination := .filled 1
  transport := none
  context := .none
  data := []

/-- A data packet to its end leaves by the path whichever rewrite stamps it. -/
theorem path_rewrites_agree_data :
    (onward (twoHops.handlePacket (towardEnd .data))).egress = some (.filled 3) ∧
      onward (twoHops.handleInboundPacket (towardEnd .data) none) =
        onward (twoHops.handlePacket (towardEnd .data)) := by
  have found : twoHops.map.lookup (towardEnd .data).destination = some {
      timestamp := 0
      receivedFrom := .filled 2
      hops := 2
      iface := .filled 3
      expires := 0
      pathExpiry := 0 } := by decide
  obtain ⟨egress, same, -⟩ := path_rewrites_agree found rfl (.inl rfl) (by decide)
  exact ⟨egress, same⟩

/--
An announce of the first type, whose destination has a path, leaves by it when it is received and
is not routed when it is sent; and a packet that lost its access code is stamped but not written.
-/
theorem announce_rewrites_differ :
    (∃ entry, twoHops.map.lookup (towardEnd .announce).destination = some entry ∧
      (towardEnd .announce).header.headerType = .type1 ∧
      (towardEnd .announce).header.destinationType = .single ∧
      (onward (twoHops.handleInboundPacket (towardEnd .announce) none)).egress = some entry.iface ∧
      (onward (twoHops.handlePacket (towardEnd .announce))).egress = none) ∧
    ∃ packet, packet.header.headerType = .type1 ∧ packet.destination = .filled 1 ∧
      packet.header.packetType = .data ∧
      ∀ room, ∃ fault, (twoHops.handlePacket packet).1.serialize (.new room) = .error fault := by
  -- One entry point passes announces by unrouted; the second packet keeps a header flag that cannot be
  -- written.
  refine ⟨⟨_, rfl, rfl, rfl, by decide, by decide⟩,
    { towardEnd .data with header := { ifacFlag := .authenticated } }, rfl, rfl, rfl, ?_⟩
  intro room
  have uncoded : ∀ buffer, (twoHops.handlePacket { towardEnd .data with
      header := { ifacFlag := .authenticated } }).1.serializeIfac buffer = .error .packetError :=
    fun buffer => rfl
  simp only [Packet.serialize]
  cases Header.serialize _ (.new room) with
  | error fault => exact ⟨fault, rfl⟩
  | ok buffer => exact ⟨.packetError, by simp only [Bind.bind, Except.bind, uncoded]⟩

end Reticulum
