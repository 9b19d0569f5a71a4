import ReticulumSdk.Destination.Announce
import ReticulumSdk.Transport.Requests

/-! The reception of a packet: the hop count, the duplicate filter, and the handler of its type. -/

namespace Reticulum

/-- A packet that arrives at a node, with what its handling reads from outside. -/
structure Arrival where
  packet : Packet
  iface : AddressHash
  radio : Radio
  around : Surroundings
  /-- The key pair of a link the packet may ask for. -/
  secret : LinkSecret

/-- The arrival as it is handled, one hop further. -/
def Arrival.received (arrival : Arrival) : Arrival :=
  { arrival with packet := arrival.packet.received }

/-- What happens at a node: a packet arrives, with what is sent for it, or anything else. -/
inductive NodeEvent where
  | arrives (arrival : Arrival) (pending : List TxMessage)
  | other

/-- The address of `create_path_request_destination`, at which every node takes path requests. -/
def fixedDestPathRequests : AddressHash :=
  let name := Hash.generate "rnstransport.path.request".toUTF8.toList
  .newFromHash (.generate (name.bytes.take NAME_HASH_LENGTH))

namespace TransportHandler

/--
The handler of the packet's type in `manage_transport`: what it leaves of the node, and what it
sends. Announces and the data of other destinations are handled elsewhere, and may do anything.
-/
inductive Dispatches (crates : Crates) (handler : TransportHandler) (arrival : Arrival)
    (after : TransportHandler) (pending : List TxMessage) : Prop where
  | linkRequest (kind : arrival.packet.header.packetType = .linkRequest)
      (handled : handler.handleLinkRequest crates arrival.secret arrival.around.now arrival.packet
        arrival.iface = (after, pending))
  | proof (kind : arrival.packet.header.packetType = .proof)
      (handled : handler.handleProof crates arrival.around arrival.packet arrival.radio
        arrival.iface = .ok (after, pending))
  | linkData (kind : arrival.packet.header.packetType = .data)
      (link : arrival.packet.header.destinationType = .link)
      (handled : handler.handleLinkData crates arrival.around arrival.packet arrival.iface =
        .ok (after, pending))
  | announce (kind : arrival.packet.header.packetType = .announce)
  | otherData (kind : arrival.packet.header.packetType = .data)
      (other : arrival.packet.header.destinationType ≠ .link)

/--
The body of the receive loop of `manage_transport`, for a packet already one hop further: path
requests are taken, the packets for another transport and the duplicates are dropped, and the rest
is dispatched.
-/
inductive Receives (crates : Crates) (handler : TransportHandler) (arrival : Arrival)
    (after : TransportHandler) (pending : List TxMessage) : Prop where
  /-- `handle_path_request`, which may do anything here. -/
  | pathRequest (taken : arrival.packet.destination = fixedDestPathRequests)
  | foreign (transported : arrival.packet.destination ≠ fixedDestPathRequests)
      (rejected : handler.acceptsTransportPacket arrival.packet = false)
      (unchanged : after = handler) (silent : pending = [])
  | duplicate (transported : arrival.packet.destination ≠ fixedDestPathRequests)
      (accepted : handler.acceptsTransportPacket arrival.packet = true)
      (dropped : handler.filterDuplicatePackets arrival.around.now arrival.packet = (false, after))
      (silent : pending = [])
  | passed (transported : arrival.packet.destination ≠ fixedDestPathRequests)
      (accepted : handler.acceptsTransportPacket arrival.packet = true)
      (filtered : TransportHandler)
      (fresh : handler.filterDuplicatePackets arrival.around.now arrival.packet = (true, filtered))
      (dispatched : filtered.Dispatches crates arrival after pending)

end TransportHandler

end Reticulum
