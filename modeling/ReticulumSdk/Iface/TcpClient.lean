import ReticulumSdk.Iface.Hdlc
import ReticulumSdk.Iface.Ifac

/-! An interface over a byte stream: its buffers, its receive loop, and what it writes for a packet. -/

namespace Reticulum

/-- `usize::saturating_add`. -/
def saturatingAdd (a b : Nat) : Nat := min (a + b) (usizeRange - 1)

/-- `usize::saturating_mul`. -/
def saturatingMul (a b : Nat) : Nat := min (a * b) (usizeRange - 1)

/-- `MAX_PACKET_FRAME_RESERVE`. -/
def MAX_PACKET_FRAME_RESERVE : Nat := RETICULUM_MAX_HEADER_SIZE
/-- `HDLC_FLAG_OVERHEAD`. -/
def HDLC_FLAG_OVERHEAD : Nat := 2
/-- `DEFAULT_HW_MTU`, which is what a `TcpClient` has. -/
def DEFAULT_HW_MTU : Nat := 2048
/-- `TCP_READ_BUFFER_SIZE`. -/
def TCP_READ_BUFFER_SIZE : Nat := 16 * 1024

/-- `tx_frame_buffer_sizes`: room for a serialized packet, and for its frame. -/
def txFrameBufferSizes (hwMtu : Nat) : Nat × Nat :=
  let serialized := saturatingAdd hwMtu MAX_PACKET_FRAME_RESERVE
  let hdlc := saturatingAdd (saturatingMul serialized 2) HDLC_FLAG_OVERHEAD
  (serialized, hdlc)

/-- `rx_frame_capacity`. -/
def rxFrameCapacity (hwMtu : Nat) : Nat :=
  saturatingAdd (saturatingMul hwMtu 2) HDLC_FLAG_OVERHEAD

/-- The sizes of the buffers that a stream interface works with. -/
structure StreamBuffers where
  txCapacity : Nat
  hdlcCapacity : Nat
  rxCapacity : Nat

/-- The buffers `TcpClient::spawn` allocates for its tasks. -/
def StreamBuffers.allocate (hwMtu : Nat) : Outcome StreamBuffers := do
  let (txCapacity, hdlcCapacity) := txFrameBufferSizes hwMtu
  let rxCapacity := rxFrameCapacity hwMtu
  Reticulum.allocate rxCapacity 1
  Reticulum.allocate hdlcCapacity 1
  Reticulum.allocate txCapacity 1
  return ⟨txCapacity, hdlcCapacity, rxCapacity⟩

/-- `minimum_decoded_packet_len`, by the header type the first byte would have. -/
def minimumDecodedPacketLen (data : Bytes) : Nat :=
  match data.head? with
  | some byte => if (Header.fromMeta byte).headerType = .type2 then RETICULUM_MAX_HEADER_SIZE
    else RETICULUM_HEADER_MINSIZE
  | none => RETICULUM_HEADER_MINSIZE

/-- What a read of the stream gives while the connection is open. -/
structure TcpRead where
  bytes : Bytes
  filled : 0 < bytes.length
  fits : bytes.length ≤ TCP_READ_BUFFER_SIZE

/-- The receive task of `TcpClient::spawn`: its frame buffer, and what it ever did with frames. -/
structure TcpReceiver where
  frameBuffer : Bytes
  /-- Every packet ever sent on `rx_channel`. -/
  rxChannel : List Packet
  /-- Every partial frame dropped because the buffer was too long. -/
  oversized : List Bytes

namespace TcpReceiver

/-- A receive task that has read nothing yet. -/
def new : TcpReceiver := ⟨[], [], []⟩

variable (hkdf : HkdfSha256) (ifacConfig : Option IfacConfig)

/-- What the loop delivers for a payload: nothing where it is too short, or not decoded. -/
def accept (decoded : Bytes) : Option Packet :=
  if decoded.length < minimumDecodedPacketLen decoded then none
  else (decodeRx hkdf ifacConfig decoded).toOption

/-- What the loop delivers for a frame. -/
def acceptFrame (frameBytes : Bytes) : Option Packet :=
  match Hdlc.decode frameBytes (.new frameBytes.length) with
  | .ok output => accept hkdf ifacConfig output.written
  | .error _ => none

/--
The inner loop of a read over the frames in the buffer, with as many rounds as it may take: what it
delivers, and how much of the buffer it consumed.
-/
def frames (frameBuffer : Bytes) : (rounds consumed : Nat) → List Packet × Nat
  | 0, consumed => ([], consumed)
  | rounds + 1, consumed =>
    match Hdlc.find (frameBuffer.drop consumed) with
    | none => ([], consumed)
    | some frame =>
      let start := consumed + frame.1
      let «end» := consumed + frame.2
      let frameBytes := (frameBuffer.take («end» + 1)).drop start
      let (packets, last) := frames frameBuffer rounds («end» + 1)
      ((acceptFrame hkdf ifacConfig frameBytes).toList ++ packets, last)

/-- What the receive task does with a read. -/
def receive (rxCapacity : Nat) (receiver : TcpReceiver) (read : Bytes) : TcpReceiver :=
  let frameBuffer := receiver.frameBuffer ++ read
  -- Each frame takes two bytes of the buffer at least.
  let (packets, consumed) := frames hkdf ifacConfig frameBuffer frameBuffer.length 0
  let kept := frameBuffer.drop consumed
  let rxChannel := receiver.rxChannel ++ packets
  if kept.length > rxCapacity then ⟨[], rxChannel, receiver.oversized ++ [kept]⟩
  else { receiver with frameBuffer := kept, rxChannel := rxChannel }

/-- The receive task over a row of reads. -/
def receiveAll (rxCapacity : Nat) (receiver : TcpReceiver) (reads : List TcpRead) : TcpReceiver :=
  reads.foldl (fun receiver read => receiver.receive hkdf ifacConfig rxCapacity read.bytes) receiver

end TcpReceiver

/-- What the transmit task writes to the stream for a packet, unless it drops it. -/
def StreamBuffers.transmit (buffers : StreamBuffers) (hkdf : HkdfSha256)
    (ifacConfig : Option IfacConfig) (packet : Packet) : Option Bytes :=
  match encodeTx hkdf ifacConfig packet buffers.txCapacity with
  | .ok bytes =>
    match Hdlc.encode bytes (.new buffers.hdlcCapacity) with
    | .ok hdlcOutput => some hdlcOutput.written
    | .error _ => none
  | .error _ => none

end Reticulum
