import ReticulumSdk.Iface.Serial
import ReticulumSdk.Iface.StreamDelivery

/-! Receivers that find the frames of a stream again after whatever came before them. -/

namespace Reticulum

/-- A receiver that had delivered some packets goes on with all of these but the first, if not with all. -/
def AtMostFirstLost (before packets after : List Packet) : Prop :=
  ∃ first, first.length ≤ 1 ∧ after = before ++ first ++ packets.tail

/-- Delivering all of them loses none. -/
theorem atMostFirstLost_append (before packets : List Packet) :
    AtMostFirstLost before packets (before ++ packets) := by
  cases packets with
  | nil => exact ⟨[], Nat.zero_le _, by simp⟩
  | cons packet packets => exact ⟨[packet], le_rfl, by simp⟩

namespace TcpReceiver

variable {hkdf : HkdfSha256} {ifacConfig : Option IfacConfig} {rxCapacity : Nat}
  {receiver : TcpReceiver}

/-- A receive task never holds back more than its capacity. -/
theorem receiveAll_length_le (small : receiver.frameBuffer.length ≤ rxCapacity) (reads : List TcpRead) :
    (receiver.receiveAll hkdf ifacConfig rxCapacity reads).frameBuffer.length ≤ rxCapacity := by
  -- What is longer is dropped at the end of the read.
  induction reads generalizing receiver with
  | nil => exact small
  | cons read reads ih =>
    refine ih ?_
    unfold receive
    simp only
    split
    · exact Nat.zero_le _
    · exact Nat.not_lt.mp ‹_›

/-- The frames that a receive task delivers, with the packets in them. -/
def Valid (hkdf : HkdfSha256) (ifacConfig : Option IfacConfig) (hwMtu : Nat) (data : Bytes)
    (packet : Packet) : Prop :=
  data.length ≤ hwMtu ∧ accept hkdf ifacConfig data = some packet

/--
The state a receive task has to be in when valid frames begin: no flag is held back, and no read
that ends inside the first of them leaves more than the buffer takes.
-/
def InSync (rxCapacity : Nat) (receiver : TcpReceiver) (payloads : List Bytes) (reads : List TcpRead) :
    Prop :=
  HDLC_FRAME_FLAG ∉ receiver.frameBuffer ∧
    ∀ data ∈ payloads.head?, ∀ front back, reads = front ++ back →
      (front.flatMap TcpRead.bytes).length < (Hdlc.frame data).length →
        receiver.frameBuffer.length + (front.flatMap TcpRead.bytes).length ≤ rxCapacity

/-- A receive task that is in sync delivers every valid frame. -/
theorem InSync.delivers {hwMtu : Nat} {buffers : StreamBuffers}
    (started : StreamBuffers.allocate hwMtu = .ok buffers) {payloads : List Bytes}
    {packets : List Packet} (valid : List.Forall₂ (Valid hkdf ifacConfig hwMtu) payloads packets)
    {reads : List TcpRead} (cut : reads.flatMap TcpRead.bytes = payloads.flatMap Hdlc.frame)
    (small : receiver.frameBuffer.length ≤ buffers.rxCapacity)
    (sync : receiver.InSync buffers.rxCapacity payloads reads) :
    (receiver.receiveAll hkdf ifacConfig buffers.rxCapacity reads).rxChannel =
      receiver.rxChannel ++ packets := by
  have rx := (StreamBuffers.of_allocate started).2.2
  -- Every frame is short enough for the buffer, for its payload is valid.
  have fits : ∀ data ∈ payloads, (Hdlc.frame data).length ≤ buffers.rxCapacity := by
    intro data inside
    have short := ((List.forall₂_and_left _ _).mp valid).1 data inside
    have wide := (Hdlc.frame_length data).2
    omega
  rw [(receiveAll_frames hkdf ifacConfig sync.1 small fits cut sync.2).1]
  congr 1
  -- The valid payloads are accepted one by one.
  clear cut sync fits
  induction valid with
  | nil => rfl
  | cons first rest ih => rw [List.filterMap_cons, first.2, ih]

end TcpReceiver

namespace SerialReceiver

variable {hkdf : HkdfSha256} {ifacConfig : Option IfacConfig} {receiver : SerialReceiver}

/-- The frames that a serial receiver delivers, with the packets in them. -/
def Valid (hkdf : HkdfSha256) (ifacConfig : Option IfacConfig) (data : Bytes) (packet : Packet) : Prop :=
  data.length ≤ SERIAL_HW_MTU ∧ accept hkdf ifacConfig data = some packet

/--
The state a serial receiver has to be in when valid frames begin: outside a frame, or inside one and
waiting for an escaped byte; and no timeout finds data while they arrive.
-/
def InSync (hkdf : HkdfSha256) (ifacConfig : Option IfacConfig) (receiver : SerialReceiver)
    (events : List SerialEvent) : Prop :=
  receiver.decoder.inFrame = receiver.decoder.escape ∧
    ∀ front back, events = front ++ .timeout :: back →
      (receiver.receiveAll hkdf ifacConfig front).decoder.data = []

/-- Valid frames are delivered as the packets in them. -/
private theorem filterMap_valid {payloads : List Bytes} {packets : List Packet}
    (valid : List.Forall₂ (Valid hkdf ifacConfig) payloads packets) :
    payloads.filterMap (accept hkdf ifacConfig) = packets := by
  induction valid with
  | nil => rfl
  | cons first rest ih => rw [List.filterMap_cons, first.2, ih]

/-- A serial receiver that is in sync loses the first valid frame at most. -/
theorem InSync.delivers {payloads : List Bytes} {packets : List Packet}
    (valid : List.Forall₂ (Valid hkdf ifacConfig) payloads packets) {events : List SerialEvent}
    (sent : events.filterMap SerialEvent.byte? = payloads.flatMap Hdlc.frame)
    (sync : receiver.InSync hkdf ifacConfig events) :
    AtMostFirstLost receiver.rxChannel packets (receiver.receiveAll hkdf ifacConfig events).rxChannel := by
  have fits : ∀ payload ∈ payloads, payload.length ≤ SERIAL_HW_MTU :=
    ((List.forall₂_and_left _ _).mp valid).1
  obtain ⟨⟨inFrame, escape, data⟩, rxChannel⟩ := receiver
  obtain ⟨same, idle⟩ := sync
  rw [receiveAll_idle events idle, sent, receiveAll_byte]
  simp only at same ⊢
  subst same
  cases inFrame with
  | false =>
    -- Outside a frame nothing is lost.
    rw [HdlcDecoder.pushAll_frames fits, filterMap_valid valid]
    exact atMostFirstLost_append _ _
  | true =>
    cases valid with
    | nil => exact ⟨[], Nat.zero_le _, by simp [HdlcDecoder.pushAll]⟩
    | cons first rest =>
      -- The first frame ends what was begun, and the decoder is outside a frame behind it.
      rename_i payload packet payloads packets
      obtain ⟨stale, joined⟩ := HdlcDecoder.pushAll_frame_escaped data payload
      have later := HdlcDecoder.pushAll_frames
        (fun payload inside => fits payload (List.mem_cons_of_mem _ inside)) []
      refine ⟨(accept hkdf ifacConfig stale).toList, by cases accept hkdf ifacConfig stale <;> simp, ?_⟩
      rw [List.flatMap_cons, HdlcDecoder.pushAll_append, joined]
      simp only [HdlcDecoder.new, later, List.singleton_append, List.filterMap_cons, filterMap_valid rest,
        List.tail_cons]
      cases accept hkdf ifacConfig stale <;> simp

end SerialReceiver

/--
Receivers find the frames of a stream again: in every run of the receive loop over TCP, and in every
run of the serial one, after anything that came before, valid frames that follow back to back are
delivered but for the first at most, if the receiver is in sync when they begin.
-/
theorem resynchronises (hkdf : HkdfSha256) (ifacConfig : Option IfacConfig) :
    (∀ hwMtu buffers, StreamBuffers.allocate hwMtu = .ok buffers → ∀ before : List TcpRead,
      let receiver := TcpReceiver.new.receiveAll hkdf ifacConfig buffers.rxCapacity before
      ∀ payloads packets, List.Forall₂ (TcpReceiver.Valid hkdf ifacConfig hwMtu) payloads packets →
        ∀ reads : List TcpRead, reads.flatMap TcpRead.bytes = payloads.flatMap Hdlc.frame →
          receiver.InSync buffers.rxCapacity payloads reads →
            AtMostFirstLost receiver.rxChannel packets
              (receiver.receiveAll hkdf ifacConfig buffers.rxCapacity reads).rxChannel) ∧
    (∀ before : List SerialEvent,
      let receiver := SerialReceiver.new.receiveAll hkdf ifacConfig before
      ∀ payloads packets, List.Forall₂ (SerialReceiver.Valid hkdf ifacConfig) payloads packets →
        ∀ events : List SerialEvent, events.filterMap SerialEvent.byte? = payloads.flatMap Hdlc.frame →
          receiver.InSync hkdf ifacConfig events →
            AtMostFirstLost receiver.rxChannel packets
              (receiver.receiveAll hkdf ifacConfig events).rxChannel) := by
  constructor
  · -- Over TCP, what is kept of the stream before is at most a buffer full.
    intro hwMtu buffers started before receiver payloads packets valid reads cut sync
    have small : receiver.frameBuffer.length ≤ buffers.rxCapacity :=
      TcpReceiver.receiveAll_length_le (Nat.zero_le _) before
    rw [sync.delivers started valid cut small]
    exact atMostFirstLost_append _ _
  · -- Over a serial port, the decoder is between frames or in one.
    intro before receiver payloads packets valid events sent sync
    exact sync.delivers valid sent

/-- A packet of nothing but its header. -/
private def bareSample : Packet where
  header := {}
  destination := .filled 0x11
  transport := none
  context := .none
  data := []

/-- Two frames of it in one read. -/
private def twoFrames : TcpRead :=
  ⟨Hdlc.frame bareSample.wire ++ Hdlc.frame bareSample.wire, by decide, by decide⟩

/-- The packet is valid for both receivers. -/
private theorem bareSample_valid :
    TcpReceiver.Valid .sample none DEFAULT_HW_MTU bareSample.wire bareSample ∧
      SerialReceiver.Valid .sample none bareSample.wire bareSample := by
  refine ⟨⟨by decide, ?_⟩, ⟨by decide, ?_⟩⟩ <;> decide +kernel

/-- A fresh receive task delivers two frames, and a serial one that waits for an escaped byte the second. -/
theorem resynchronises_twoFrames :
    AtMostFirstLost [] [bareSample, bareSample]
      (TcpReceiver.new.receiveAll .sample none 4098 [twoFrames]).rxChannel ∧
    AtMostFirstLost [] [bareSample, bareSample]
      ((SerialReceiver.new.receiveAll .sample none [.byte 0x7e, .byte 0x7d]).receiveAll .sample none
        (twoFrames.bytes.map .byte)).rxChannel := by
  obtain ⟨tcp, serial⟩ := bareSample_valid
  constructor
  · refine (resynchronises .sample none).1 DEFAULT_HW_MTU ⟨2083, 4168, 4098⟩ rfl []
      [bareSample.wire, bareSample.wire] _ (.cons tcp (.cons tcp .nil)) _ (by decide) ⟨by decide, ?_⟩
    intro data leading front back split before
    cases leading
    have width : (Hdlc.frame bareSample.wire).length = 21 := by decide
    simp only [TcpReceiver.receiveAll, List.foldl_nil, TcpReceiver.new, List.length_nil]
    omega
  · refine (resynchronises .sample none).2 [.byte 0x7e, .byte 0x7d] [bareSample.wire, bareSample.wire] _
      (.cons serial (.cons serial .nil)) _ (by decide) ⟨by decide, ?_⟩
    intro front back split
    -- There is no timeout among the bytes.
    have inside : SerialEvent.timeout ∈ twoFrames.bytes.map SerialEvent.byte := by simp [split]
    simp at inside

/-- After a single flag neither receiver finds the frames that follow. -/
theorem stray_flag_desynchronises :
    (¬ ∀ hkdf ifacConfig hwMtu buffers, StreamBuffers.allocate hwMtu = .ok buffers →
      ∀ before payloads packets,
        List.Forall₂ (TcpReceiver.Valid hkdf ifacConfig hwMtu) payloads packets →
        ∀ reads : List TcpRead, reads.flatMap TcpRead.bytes = payloads.flatMap Hdlc.frame →
          AtMostFirstLost
            (TcpReceiver.new.receiveAll hkdf ifacConfig buffers.rxCapacity before).rxChannel packets
            ((TcpReceiver.new.receiveAll hkdf ifacConfig buffers.rxCapacity before).receiveAll hkdf
              ifacConfig buffers.rxCapacity reads).rxChannel) ∧
    (¬ ∀ hkdf ifacConfig before payloads packets,
        List.Forall₂ (SerialReceiver.Valid hkdf ifacConfig) payloads packets →
        ∀ events : List SerialEvent, events.filterMap SerialEvent.byte? = payloads.flatMap Hdlc.frame →
          AtMostFirstLost (SerialReceiver.new.receiveAll hkdf ifacConfig before).rxChannel packets
            ((SerialReceiver.new.receiveAll hkdf ifacConfig before).receiveAll hkdf ifacConfig
              events).rxChannel) := by
  obtain ⟨tcp, serial⟩ := bareSample_valid
  -- Nothing is delivered, where the second of two packets should be.
  have nothing {after : List Packet} (none : after = []) :
      ¬ AtMostFirstLost [] [bareSample, bareSample] after := by
    rintro ⟨first, -, same⟩
    rw [none] at same
    simp at same
  constructor
  · intro finds
    have found := finds .sample none DEFAULT_HW_MTU ⟨2083, 4168, 4098⟩ rfl
      [⟨[0x7e], by decide, by decide⟩] _ _ (.cons tcp (.cons tcp .nil)) [twoFrames] (by decide)
    exact nothing (by decide +kernel) found
  · intro finds
    have found := finds .sample none [.byte 0x7e] _ _ (.cons serial (.cons serial .nil))
      (twoFrames.bytes.map .byte) (by decide)
    exact nothing (by decide +kernel) found

end Reticulum
