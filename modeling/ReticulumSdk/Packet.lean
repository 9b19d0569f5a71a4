import ReticulumSdk.Error
import ReticulumSdk.Hash

/-! Packets, their header byte and the hash that names them. -/

namespace Reticulum

/-- `RETICULUM_MTU`: the packet size every interface carries. -/
def RETICULUM_MTU : Nat := 500
/-- `RETICULUM_HEADER_MINSIZE`: flags, hops, one address and the context. -/
def RETICULUM_HEADER_MINSIZE : Nat := 2 + 1 + 16
/-- `RETICULUM_MAX_HEADER_SIZE`: the same with a second address. -/
def RETICULUM_MAX_HEADER_SIZE : Nat := 35
/-- `RETICULUM_MIN_IFAC_SIZE`. -/
def RETICULUM_MIN_IFAC_SIZE : Nat := 1
/-- `PACKET_MDU`. -/
def PACKET_MDU : Nat := RETICULUM_MTU - RETICULUM_MAX_HEADER_SIZE - RETICULUM_MIN_IFAC_SIZE
/-- `RETICULUM_TOKEN_OVERHEAD`: bytes an encryption token adds around its ciphertext. -/
def RETICULUM_TOKEN_OVERHEAD : Nat := 48
/-- `RETICULUM_AES_BLOCK_SIZE`. -/
def RETICULUM_AES_BLOCK_SIZE : Nat := 16
/-- `PACKET_IFAC_MAX_LENGTH`. -/
def PACKET_IFAC_MAX_LENGTH : Nat := 64

/-- `compute_link_mdu`, in which truncated subtraction saturates. -/
def computeLinkMdu (mtu : Nat) : Nat :=
  let available :=
    mtu - RETICULUM_MIN_IFAC_SIZE - RETICULUM_HEADER_MINSIZE - RETICULUM_TOKEN_OVERHEAD
  available / RETICULUM_AES_BLOCK_SIZE * RETICULUM_AES_BLOCK_SIZE - 1

/-- `IfacFlag`. -/
inductive IfacFlag where
  | opened
  | authenticated
  deriving DecidableEq

/-- `HeaderType`. -/
inductive HeaderType where
  | type1
  | type2
  deriving DecidableEq

/-- `ContextFlag`. -/
inductive ContextFlag where
  | unset
  | set
  deriving DecidableEq

/-- `PropagationType`. -/
inductive PropagationType where
  | broadcast
  | transport
  deriving DecidableEq

/-- `DestinationType`. -/
inductive DestinationType where
  | single
  | group
  | plain
  | link
  deriving DecidableEq

/-- `PacketType`. -/
inductive PacketType where
  | data
  | announce
  | linkRequest
  | proof
  deriving DecidableEq

/-- `PacketContext`. -/
inductive PacketContext where
  | none
  | resource
  | resourceAdvertisement
  | resourceRequest
  | resourceHashUpdate
  | resourceProof
  | resourceInitiatorCancel
  | resourceReceiverCancel
  | cacheRequest
  | request
  | response
  | pathResponse
  | command
  | commandStatus
  | channel
  | keepAlive
  | linkIdentify
  | linkClose
  | linkProof
  | linkRTT
  | linkRequestProof
  deriving DecidableEq

/-- The header type as a bit. -/
def HeaderType.toByte : HeaderType → UInt8
  | .type1 => 0b0
  | .type2 => 0b1

/-- The context flag as a bit. -/
def ContextFlag.toByte : ContextFlag → UInt8
  | .unset => 0b0
  | .set => 0b1

/-- The propagation type as a bit. -/
def PropagationType.toByte : PropagationType → UInt8
  | .broadcast => 0b0
  | .transport => 0b1

/-- The destination type as two bits. -/
def DestinationType.toByte : DestinationType → UInt8
  | .single => 0b00
  | .group => 0b01
  | .plain => 0b10
  | .link => 0b11

/-- The packet type as two bits. -/
def PacketType.toByte : PacketType → UInt8
  | .data => 0b00
  | .announce => 0b01
  | .linkRequest => 0b10
  | .proof => 0b11

/-- The context byte. -/
def PacketContext.toByte : PacketContext → UInt8
  | .none => 0x00
  | .resource => 0x01
  | .resourceAdvertisement => 0x02
  | .resourceRequest => 0x03
  | .resourceHashUpdate => 0x04
  | .resourceProof => 0x05
  | .resourceInitiatorCancel => 0x06
  | .resourceReceiverCancel => 0x07
  | .cacheRequest => 0x08
  | .request => 0x09
  | .response => 0x0A
  | .pathResponse => 0x0B
  | .command => 0x0C
  | .commandStatus => 0x0D
  | .channel => 0x0E
  | .keepAlive => 0xFA
  | .linkIdentify => 0xFB
  | .linkClose => 0xFC
  | .linkProof => 0xFD
  | .linkRTT => 0xFE
  | .linkRequestProof => 0xFF

/-- `HeaderType::from`, which reads the lowest bit. -/
def HeaderType.ofByte (value : UInt8) : HeaderType :=
  match value &&& 0b1 with
  | 0 => .type1
  | 1 => .type2
  | _ => .type1

/-- `ContextFlag::from`. -/
def ContextFlag.ofByte (value : UInt8) : ContextFlag :=
  match value &&& 0b1 with
  | 0b0 => .unset
  | 0b1 => .set
  | _ => .unset

/-- `PropagationType::from`. -/
def PropagationType.ofByte (value : UInt8) : PropagationType :=
  match value &&& 0b1 with
  | 0b0 => .broadcast
  | 0b1 => .transport
  | _ => .broadcast

/-- `DestinationType::from`, which reads the two lowest bits. -/
def DestinationType.ofByte (value : UInt8) : DestinationType :=
  match value &&& 0b11 with
  | 0b00 => .single
  | 0b01 => .group
  | 0b10 => .plain
  | 0b11 => .link
  | _ => .single

/-- `PacketType::from`. -/
def PacketType.ofByte (value : UInt8) : PacketType :=
  match value &&& 0b11 with
  | 0b00 => .data
  | 0b01 => .announce
  | 0b10 => .linkRequest
  | 0b11 => .proof
  | _ => .data

/-- `PacketContext::from`, which takes every code it does not know for that of generic data. -/
def PacketContext.ofByte (value : UInt8) : PacketContext :=
  match value with
  | 0x01 => .resource
  | 0x02 => .resourceAdvertisement
  | 0x03 => .resourceRequest
  | 0x04 => .resourceHashUpdate
  | 0x05 => .resourceProof
  | 0x06 => .resourceInitiatorCancel
  | 0x07 => .resourceReceiverCancel
  | 0x08 => .cacheRequest
  | 0x09 => .request
  | 0x0A => .response
  | 0x0B => .pathResponse
  | 0x0C => .command
  | 0x0D => .commandStatus
  | 0x0E => .channel
  | 0xFA => .keepAlive
  | 0xFB => .linkIdentify
  | 0xFC => .linkClose
  | 0xFD => .linkProof
  | 0xFE => .linkRTT
  | 0xFF => .linkRequestProof
  | _ => .none

/-- `Header`, whose default is that of an open first-type broadcast data packet. -/
structure Header where
  ifacFlag : IfacFlag := .opened
  headerType : HeaderType := .type1
  contextFlag : ContextFlag := .unset
  propagationType : PropagationType := .broadcast
  destinationType : DestinationType := .single
  packetType : PacketType := .data
  hops : UInt8 := 0
  deriving DecidableEq

/-- `Header::to_meta`. -/
def Header.toMeta (header : Header) : UInt8 :=
  let fields := header.headerType.toByte <<< 6 ||| header.contextFlag.toByte <<< 5 |||
    header.propagationType.toByte <<< 4 ||| header.destinationType.toByte <<< 2 |||
    header.packetType.toByte
  if header.ifacFlag = .authenticated then fields ||| 0b10000000 else fields

/-- `Header::from_meta`, which leaves the hops at zero. -/
def Header.fromMeta (byte : UInt8) : Header where
  ifacFlag := if byte &&& 0b10000000 ≠ 0 then .authenticated else .opened
  headerType := .ofByte (byte >>> 6)
  contextFlag := .ofByte (byte >>> 5)
  propagationType := .ofByte (byte >>> 4)
  destinationType := .ofByte (byte >>> 2)
  packetType := .ofByte (byte >>> 0)
  hops := 0

/-- `Packet`, whose access code is the used part of its buffer. -/
structure Packet where
  header : Header
  ifac : Option Bytes := none
  destination : AddressHash
  transport : Option AddressHash
  context : PacketContext
  data : Bytes
  deriving DecidableEq

/-- What `Packet::hash` feeds the digest. -/
def Packet.hashed (packet : Packet) : Bytes :=
  (packet.header.toMeta &&& 0b00001111) ::
    (packet.destination.bytes ++ packet.context.toByte :: packet.data)

/-- `Packet::hash`. -/
def Packet.hash (packet : Packet) : Hash := .generate packet.hashed

/-- `Packet::signed_data`: the packet as it is written without an access code. -/
def Packet.signedData (packet : Packet) : Except RnsError Bytes := do
  let transport ← if packet.header.headerType = .type2 then
      match packet.transport with
      | some transport => .ok transport.bytes
      | none => .error .packetError
    else .ok []
  return (packet.header.toMeta &&& 0b01111111) :: packet.header.hops ::
    (transport ++ packet.destination.bytes ++ packet.context.toByte :: packet.data)

end Reticulum
