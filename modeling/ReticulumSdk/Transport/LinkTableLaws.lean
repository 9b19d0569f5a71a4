import ReticulumSdk.Transport.LinkTable

/-! What forwarding keeps of a packet and of the entries of the link table. -/

namespace Reticulum

/-- The four bits of the header that a packet keeps on its way. -/
theorem Header.toMeta_and (header : Header) :
    header.toMeta &&& (0b00001111 : UInt8) =
      header.destinationType.toByte <<< 2 ||| header.packetType.toByte := by
  -- The other bits lie above the mask, whatever they are.
  obtain ⟨ifac, headerType, contextFlag, propagation, destinationType, packetType, hops⟩ := header
  simp only [Header.toMeta]
  cases ifac <;> cases headerType <;> cases contextFlag <;> cases propagation <;>
    cases destinationType <;> cases packetType <;> decide

/-- Two packets that carry the same message, however their headers were rewritten on the way. -/
structure SameMessage (sent arrived : Packet) : Prop where
  destination : arrived.destination = sent.destination
  context : arrived.context = sent.context
  data : arrived.data = sent.data
  packetType : arrived.header.packetType = sent.header.packetType
  destinationType : arrived.header.destinationType = sent.header.destinationType

instance (sent arrived : Packet) : Decidable (SameMessage sent arrived) :=
  decidable_of_iff (arrived.destination = sent.destination ∧ arrived.context = sent.context ∧
      arrived.data = sent.data ∧ arrived.header.packetType = sent.header.packetType ∧
      arrived.header.destinationType = sent.header.destinationType)
    ⟨fun ⟨destination, context, data, packetType, destinationType⟩ =>
      ⟨destination, context, data, packetType, destinationType⟩,
    fun same => ⟨same.destination, same.context, same.data, same.packetType, same.destinationType⟩⟩

namespace SameMessage

variable {sent middle arrived : Packet}

/-- A packet carries its own message. -/
theorem refl (packet : Packet) : SameMessage packet packet := ⟨rfl, rfl, rfl, rfl, rfl⟩

/-- Carrying a message on keeps it. -/
theorem trans (first : SameMessage sent middle) (second : SameMessage middle arrived) :
    SameMessage sent arrived where
  destination := second.destination.trans first.destination
  context := second.context.trans first.context
  data := second.data.trans first.data
  packetType := second.packetType.trans first.packetType
  destinationType := second.destinationType.trans first.destinationType

/-- The same message has the same hash. -/
theorem hash (same : SameMessage sent arrived) : arrived.hash = sent.hash := by
  simp only [Packet.hash, Packet.hashed, Header.toMeta_and, same.destination, same.context,
    same.data, same.packetType, same.destinationType]

end SameMessage

/-- A propagated packet carries the same message. -/
theorem propagate_same (packet : Packet) (iface : AddressHash) :
    SameMessage packet (propagate packet iface).1 := ⟨rfl, rfl, rfl, rfl, rfl⟩

namespace LinkTable

variable {table : LinkTable} {entry : LinkEntry} {now : Instant} {packet : Packet}
  {receivedOn iface : AddressHash}

/--
A request is added, or known from a copy that took the same way, and then has an entry that
leads from where it came to where it goes.
-/
theorem add_entry (now : Instant) (destination : AddressHash) (remainingHops : UInt8)
    {receivedFrom iface : AddressHash}
    (known : ∀ entry, table.lookup packet.linkId = some entry → entry.nextHopIface = iface ∧
      entry.receivedFrom = receivedFrom ∧ entry.takenHops = packet.header.hops) :
    (table.add now packet destination receivedFrom iface remainingHops).1 ≠ .loop ∧
      ∃ entry, (table.add now packet destination receivedFrom iface remainingHops).2.lookup
          packet.linkId = some entry ∧ entry.nextHopIface = iface ∧
        entry.receivedFrom = receivedFrom ∧ entry.takenHops = packet.header.hops := by
  unfold add
  cases found : table.lookup packet.linkId with
  | none => exact ⟨by simp, _, AList.lookup_insert table, rfl, rfl, rfl⟩
  | some entry =>
    -- A copy with the same count of hops is a retransmission.
    have copy := known entry found
    have again : ¬ packet.header.hops > entry.takenHops := by
      rw [copy.2.2]
      exact UInt8.lt_irrefl _
    simp only [again, if_false]
    exact ⟨by simp, entry, found, copy⟩

/-- A packet with a route through a validated entry is forwarded along it. -/
theorem handlePacket_eq (now : Instant) (found : table.lookup packet.destination = some entry)
    (validated : entry.validated = true)
    (route : entry.packetRoute packet.header.hops receivedOn = some iface) :
    table.handlePacket now packet receivedOn =
      (some (propagate packet iface), table.insert packet.destination (entry.forwarded now)) := by
  simp [handlePacket, found, validated, route]

/-- A packet without a route through a validated entry is refused. -/
theorem handlePacket_refused (found : table.lookup packet.destination = some entry)
    (rejected : ¬ (entry.validated = true ∧
      (entry.packetRoute packet.header.hops receivedOn).isSome)) :
    table.handlePacket now packet receivedOn = (none, table) := by
  -- Without a validated entry or a route the source returns before the entry is refreshed.
  unfold handlePacket
  simp only [found]
  cases validated : entry.validated with
  | false => simp
  | true =>
    cases route : entry.packetRoute packet.header.hops receivedOn with
    | none => simp
    | some iface => exact absurd ⟨validated, by rw [route]; rfl⟩ rejected

/-- Only a validated entry leads to the destination of its link. -/
theorem originalDestination_eq {linkId : AddressHash} (found : table.lookup linkId = some entry) :
    table.originalDestination linkId =
      if entry.validated then some entry.originalDestination else none := by
  unfold originalDestination
  rw [found]
  cases validated : entry.validated <;> simp [Option.filter, validated]

/-- What `handle_packet` forwards has a route through a validated entry. -/
theorem handlePacket_isSome :
    (table.handlePacket now packet receivedOn).1.isSome ↔
      ∃ entry, table.lookup packet.destination = some entry ∧ entry.validated = true ∧
        (entry.packetRoute packet.header.hops receivedOn).isSome := by
  -- The packet goes on where an entry is found, validated, and has a route for it.
  unfold handlePacket
  cases found : table.lookup packet.destination with
  | none => simp
  | some entry =>
    cases validated : entry.validated
    · simp [validated]
    · cases route : entry.packetRoute packet.header.hops receivedOn <;> simp [validated, route]

/-- A proof with a route through an entry is forwarded along it, and writes what it may. -/
theorem handleProof_eq (now : Instant) (found : table.lookup packet.destination = some entry)
    (route : entry.proofRoute packet.isLrproof packet.header.hops receivedOn = some iface) :
    table.handleProof now packet receivedOn =
      (some {
          propagation := propagate packet iface
          rebalance := if packet.isLrproof ∧ ¬ entry.rebalanced then
            some { destination := entry.originalDestination, hops := packet.header.hops } else none },
        table.insert packet.destination
          ((if packet.isLrproof then entry.proved packet.header.hops else entry).forwarded now)) := by
  simp only [handleProof, found, route]

end LinkTable

end Reticulum
