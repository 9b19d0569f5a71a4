import ReticulumSdk.Base.Clock
import ReticulumSdk.Base.Table
import ReticulumSdk.Link.Establish

/-! The links a relay carries between two of its interfaces. -/

namespace Reticulum

/-- `DEFAULT_PER_HOP_TIMEOUT_SECS`, in nanoseconds. -/
def DEFAULT_PER_HOP_TIMEOUT : Duration := 6 * nanosPerSec

/-- `LinkEntry`. -/
structure LinkEntry where
  timestamp : Instant
  proofTimeout : Instant
  nextHopIface : AddressHash
  receivedFrom : AddressHash
  originalDestination : AddressHash
  takenHops : UInt8
  remainingHops : UInt8
  validated : Bool
  rebalanced : Bool
  forwardCount : Nat
  deriving DecidableEq

/-- `RebalanceInfo`. -/
structure RebalanceInfo where
  destination : AddressHash
  hops : UInt8
  deriving DecidableEq

/-- `HandleProofOutcome`. -/
structure HandleProofOutcome where
  propagation : Packet × AddressHash
  rebalance : Option RebalanceInfo

/-- `AddLinkRequest`. -/
inductive AddLinkRequest where
  | new
  | retransmission
  | loop
  deriving DecidableEq

/-- `propagate`. -/
def propagate (packet : Packet) (iface : AddressHash) : Packet × AddressHash :=
  ({ packet with
      header := { packet.header with ifacFlag := .opened }
      ifac := none }, iface)

namespace LinkEntry

/-- Whether both sides of the link are one shared medium. -/
def Shared (entry : LinkEntry) : Prop := entry.nextHopIface = entry.receivedFrom

instance (entry : LinkEntry) : Decidable entry.Shared :=
  inferInstanceAs (Decidable (entry.nextHopIface = entry.receivedFrom))

/-- The `outbound_iface` of `handle_packet`. -/
def packetRoute (entry : LinkEntry) (hops : UInt8) (receivedOn : AddressHash) : Option AddressHash :=
  if entry.Shared then
    if hops = entry.remainingHops ∨ hops = entry.takenHops then some entry.nextHopIface else none
  else if receivedOn = entry.nextHopIface then
    if hops = entry.remainingHops then some entry.receivedFrom else none
  else if receivedOn = entry.receivedFrom then
    if hops = entry.takenHops then some entry.nextHopIface else none
  else none

/-- The `outbound_iface` of `handle_proof`, where link-request proofs come from farther away. -/
def proofRoute (entry : LinkEntry) (isLrproof : Bool) (hops : UInt8) (receivedOn : AddressHash) :
    Option AddressHash :=
  if entry.Shared then
    if hops = entry.remainingHops ∨ hops = entry.takenHops ∨ isLrproof then some entry.nextHopIface
    else none
  else if receivedOn = entry.nextHopIface then
    if isLrproof ∨ hops = entry.remainingHops then some entry.receivedFrom else none
  else if receivedOn = entry.receivedFrom then
    if hops = entry.takenHops then some entry.nextHopIface else none
  else none

/-- A forwarded packet is counted and refreshes the entry. -/
def forwarded (entry : LinkEntry) (now : Instant) : LinkEntry :=
  { entry with timestamp := now, forwardCount := entry.forwardCount + 1 }

/-- What a link-request proof writes into the entry. -/
def proved (entry : LinkEntry) (hops : UInt8) : LinkEntry :=
  { entry with rebalanced := true, remainingHops := hops, validated := true }

/-- A validated entry for concrete runs, one hop from either end of its link. -/
def sample : LinkEntry where
  timestamp := 0
  proofTimeout := 0
  nextHopIface := .filled 2
  receivedFrom := .filled 1
  originalDestination := .filled 9
  takenHops := 1
  remainingHops := 1
  validated := true
  rebalanced := true
  forwardCount := 0

end LinkEntry

/-- Whether a packet is a link-request proof. -/
def Packet.isLrproof (packet : Packet) : Bool := packet.context = .linkRequestProof

/-- `LinkTable`. -/
abbrev LinkTable := Table AddressHash LinkEntry

namespace LinkTable

/-- `LinkTable::add`. -/
def add (table : LinkTable) (now : Instant) (linkRequest : Packet)
    (destination receivedFrom iface : AddressHash) (remainingHops : UInt8) :
    AddLinkRequest × LinkTable :=
  match table.lookup linkRequest.linkId with
  | some existing =>
    if linkRequest.header.hops > existing.takenHops then (.loop, table) else (.retransmission, table)
  | none =>
    (.new, table.insert linkRequest.linkId {
      timestamp := now
      proofTimeout := now + DEFAULT_PER_HOP_TIMEOUT * max remainingHops.toNat 1
      nextHopIface := iface
      receivedFrom := receivedFrom
      originalDestination := destination
      takenHops := linkRequest.header.hops
      remainingHops := remainingHops
      validated := false
      rebalanced := false
      forwardCount := 0 })

/-- `LinkTable::original_destination`. -/
def originalDestination (table : LinkTable) (linkId : AddressHash) : Option AddressHash :=
  ((table.lookup linkId).filter (·.validated)).map (·.originalDestination)

/-- `LinkTable::handle_keepalive`. -/
def handleKeepalive (table : LinkTable) (now : Instant) (packet : Packet) :
    Option (Packet × AddressHash) × LinkTable :=
  match table.lookup packet.destination with
  | none => (none, table)
  | some entry =>
    (some (propagate packet entry.receivedFrom),
      table.insert packet.destination { entry with timestamp := now })

/-- `LinkTable::handle_packet`. -/
def handlePacket (table : LinkTable) (now : Instant) (packet : Packet) (receivedOn : AddressHash) :
    Option (Packet × AddressHash) × LinkTable :=
  match table.lookup packet.destination with
  | none => (none, table)
  | some entry =>
    if ¬ entry.validated then (none, table)
    else match entry.packetRoute packet.header.hops receivedOn with
      | none => (none, table)
      | some iface =>
        (some (propagate packet iface), table.insert packet.destination (entry.forwarded now))

/-- `LinkTable::handle_proof`. -/
def handleProof (table : LinkTable) (now : Instant) (proof : Packet) (receivedOn : AddressHash) :
    Option HandleProofOutcome × LinkTable :=
  match table.lookup proof.destination with
  | none => (none, table)
  | some entry =>
    match entry.proofRoute proof.isLrproof proof.header.hops receivedOn with
    | none => (none, table)
    | some iface =>
      let rebalance := if proof.isLrproof ∧ ¬ entry.rebalanced then
        some { destination := entry.originalDestination, hops := proof.header.hops } else none
      let after := if proof.isLrproof then entry.proved proof.header.hops else entry
      (some { propagation := propagate proof iface, rebalance := rebalance },
        table.insert proof.destination (after.forwarded now))

end LinkTable

end Reticulum
