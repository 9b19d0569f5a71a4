import ReticulumSdk.Iface.Hdlc
import ReticulumSdk.Iface.Ifac

/-! The receiver of a serial port, which takes frames out byte by byte and drops what is idle too long. -/

namespace Reticulum

/-- `HW_MTU` of a serial interface. -/
def SERIAL_HW_MTU : Nat := 564

/-- `HdlcDecoder`. -/
structure HdlcDecoder where
  inFrame : Bool
  escape : Bool
  data : Bytes

namespace HdlcDecoder

/-- `HdlcDecoder::new`. -/
def new : HdlcDecoder := ⟨false, false, []⟩

/-- `HdlcDecoder::push`: the payload of the frame that the byte closes, if it closes one. -/
def push (decoder : HdlcDecoder) (byte : UInt8) : Option Bytes × HdlcDecoder :=
  -- An escaped byte is kept whatever it is, even if it was a flag.
  if decoder.escape then
    (none, { decoder with escape := false, data := decoder.data ++ [byte ^^^ 0x20] })
  else if byte = 0x7e then
    if decoder.inFrame then (some decoder.data, { decoder with inFrame := false, data := [] })
    else (none, ⟨true, false, []⟩)
  else if byte = 0x7d then
    if decoder.inFrame then (none, { decoder with escape := true }) else (none, decoder)
  else if decoder.inFrame ∧ decoder.data.length < SERIAL_HW_MTU then
    (none, { decoder with data := decoder.data ++ [byte] })
  else (none, decoder)

/-- A row of bytes: the payloads of the frames that close among them, and the decoder after them. -/
def pushAll : HdlcDecoder → Bytes → List Bytes × HdlcDecoder
  | decoder, [] => ([], decoder)
  | decoder, byte :: bytes =>
    let first := decoder.push byte
    let rest := pushAll first.2 bytes
    (first.1.toList ++ rest.1, rest.2)

/-- `HdlcDecoder::reset_timed_out`. -/
def resetTimedOut (decoder : HdlcDecoder) : HdlcDecoder :=
  if decoder.data ≠ [] then ⟨false, false, []⟩ else decoder

variable {decoder : HdlcDecoder} {data payload : Bytes}

/-- Pushing two rows of bytes is pushing them together. -/
theorem pushAll_append (front back : Bytes) : decoder.pushAll (front ++ back) =
    ((decoder.pushAll front).1 ++ ((decoder.pushAll front).2.pushAll back).1,
      ((decoder.pushAll front).2.pushAll back).2) := by
  induction front generalizing decoder with
  | nil => rfl
  | cons byte front ih => simp [pushAll, ih]

/-- Inside a frame the escaped form of a byte is decoded, while there is room for it. -/
private theorem pushAll_encodeByte (byte : UInt8) (room : data.length < SERIAL_HW_MTU) :
    pushAll ⟨true, false, data⟩ (Hdlc.encodeByte byte) = ([], ⟨true, false, data ++ [byte]⟩) := by
  unfold Hdlc.encodeByte
  split
  · -- The mask is taken off again.
    have masked : byte ^^^ HDLC_ESCAPE_MASK ^^^ 0x20 = byte := by
      rw [UInt8.xor_assoc]
      exact UInt8.xor_zero
    simp [pushAll, push, HDLC_ESCAPE_BYTE, masked]
  · rename_i plain
    rw [not_or] at plain
    have flag : ¬ byte = 0x7e := plain.1
    have escape : ¬ byte = 0x7d := plain.2
    simp [pushAll, push, flag, escape, room]

/-- Inside a frame an escaped payload closes nothing, and is decoded where there is room for it. -/
theorem pushAll_escape (data payload : Bytes) :
    ∃ kept, pushAll ⟨true, false, data⟩ (Hdlc.escape payload) = ([], ⟨true, false, kept⟩) ∧
      (data.length + payload.length ≤ SERIAL_HW_MTU → kept = data ++ payload) := by
  -- By induction over the payload, for whatever the decoder holds already.
  induction payload generalizing data with
  | nil => exact ⟨data, rfl, fun _ => (List.append_nil _).symm⟩
  | cons byte payload ih =>
    rw [Hdlc.escape, List.flatMap_cons, pushAll_append]
    -- One byte leaves the decoder inside the frame, with or without room for the byte.
    obtain ⟨next, first, fits⟩ : ∃ next,
        pushAll ⟨true, false, data⟩ (Hdlc.encodeByte byte) = ([], ⟨true, false, next⟩) ∧
          (data.length < SERIAL_HW_MTU → next = data ++ [byte]) := by
      by_cases room : data.length < SERIAL_HW_MTU
      · exact ⟨_, pushAll_encodeByte byte room, fun _ => rfl⟩
      · unfold Hdlc.encodeByte
        split
        · exact ⟨_, by simp [pushAll, push, HDLC_ESCAPE_BYTE]; rfl, fun small => absurd small room⟩
        · rename_i plain
          rw [not_or] at plain
          have flag : ¬ byte = 0x7e := plain.1
          have escape : ¬ byte = 0x7d := plain.2
          exact ⟨data, by simp [pushAll, push, flag, escape, room], fun small => absurd small room⟩
    obtain ⟨kept, rest, whole⟩ := ih next
    refine ⟨kept, ?_, fun small => ?_⟩
    · rw [first]
      simp only [List.nil_append]
      exact rest
    · rw [List.length_cons] at small
      have here := fits (by omega)
      rw [whole (by rw [here, List.length_append, List.length_singleton]; omega), here,
        List.append_assoc]
      rfl

/-- A decoder that is not inside a frame takes a whole frame out. -/
theorem pushAll_frame (data : Bytes) (fits : payload.length ≤ SERIAL_HW_MTU) :
    pushAll ⟨false, false, data⟩ (Hdlc.frame payload) = ([payload], new) := by
  -- The flags open and close, and the escaped payload between them is collected.
  obtain ⟨kept, inner, whole⟩ := pushAll_escape [] payload
  rw [whole (by simpa using fits), List.nil_append] at inner
  have opening : push ⟨false, false, data⟩ HDLC_FRAME_FLAG = (none, ⟨true, false, []⟩) := rfl
  have closing : push ⟨true, false, payload⟩ HDLC_FRAME_FLAG = (some payload, new) := rfl
  simp [Hdlc.frame, FrameReader.enclose, pushAll, pushAll_append, opening, inner, closing]

/-- A decoder that waits for an escaped byte takes the opening flag for it, and closes at the closing one. -/
theorem pushAll_frame_escaped (data payload : Bytes) :
    ∃ stale, pushAll ⟨true, true, data⟩ (Hdlc.frame payload) = ([stale], new) := by
  -- The opening flag is taken for an escaped byte, so that the closing one ends what was collected.
  obtain ⟨kept, inner, -⟩ := pushAll_escape (data ++ [HDLC_FRAME_FLAG ^^^ 0x20]) payload
  have opening : push ⟨true, true, data⟩ HDLC_FRAME_FLAG =
      (none, ⟨true, false, data ++ [HDLC_FRAME_FLAG ^^^ 0x20]⟩) := rfl
  have closing : push ⟨true, false, kept⟩ HDLC_FRAME_FLAG = (some kept, new) := rfl
  refine ⟨kept, ?_⟩
  simp [Hdlc.frame, FrameReader.enclose, pushAll, pushAll_append, opening, inner, closing]

/-- A decoder that is not inside a frame takes frames out in the order they came. -/
theorem pushAll_frames {payloads : List Bytes} (fits : ∀ payload ∈ payloads, payload.length ≤ SERIAL_HW_MTU)
    (data : Bytes) : (pushAll ⟨false, false, data⟩ (payloads.flatMap Hdlc.frame)).1 = payloads := by
  -- Every frame leaves the decoder as new.
  induction payloads generalizing data with
  | nil => rfl
  | cons payload payloads ih =>
    rw [List.flatMap_cons, pushAll_append, pushAll_frame data (fits payload List.mem_cons_self)]
    have rest := ih (fun payload inside => fits payload (List.mem_cons_of_mem _ inside)) []
    exact congrArg (payload :: ·) rest

end HdlcDecoder

/-- What wakes the read loop of a serial interface. -/
inductive SerialEvent where
  | byte (value : UInt8)
  | timeout

/-- The byte of an event, if it is one. -/
def SerialEvent.byte? : SerialEvent → Option UInt8
  | byte value => some value
  | timeout => none

/-- The read loop of a serial interface: its decoder, and every packet it ever sent on `rx_channel`. -/
structure SerialReceiver where
  decoder : HdlcDecoder
  rxChannel : List Packet

namespace SerialReceiver

/-- A read loop that has read nothing yet. -/
def new : SerialReceiver := ⟨.new, []⟩

variable (hkdf : HkdfSha256) (ifacConfig : Option IfacConfig)

/-- What the read loop delivers for a frame. -/
def accept (frame : Bytes) : Option Packet := (decodeRx hkdf ifacConfig frame).toOption

/-- `read_loop`, one event: each byte it read is pushed, and the idle timer resets the decoder. -/
def receive (receiver : SerialReceiver) : SerialEvent → SerialReceiver
  | .byte byte =>
    let (frame, decoder) := receiver.decoder.push byte
    ⟨decoder, receiver.rxChannel ++ (frame.bind (accept hkdf ifacConfig)).toList⟩
  | .timeout => { receiver with decoder := receiver.decoder.resetTimedOut }

/-- The read loop over a row of events. -/
def receiveAll (receiver : SerialReceiver) (events : List SerialEvent) : SerialReceiver :=
  events.foldl (receive hkdf ifacConfig) receiver

variable {hkdf ifacConfig} {receiver : SerialReceiver}

/-- A timeout that finds no data changes nothing. -/
theorem receive_timeout (empty : receiver.decoder.data = []) :
    receiver.receive hkdf ifacConfig .timeout = receiver := by
  simp [receive, HdlcDecoder.resetTimedOut, empty]

/-- Bytes are delivered as the decoder takes frames out of them. -/
theorem receiveAll_byte (bytes : Bytes) : receiver.receiveAll hkdf ifacConfig (bytes.map .byte) =
    ⟨(receiver.decoder.pushAll bytes).2,
      receiver.rxChannel ++ (receiver.decoder.pushAll bytes).1.filterMap (accept hkdf ifacConfig)⟩ := by
  -- The induction is over the bytes, with the receiver as the first of them leaves it.
  induction bytes generalizing receiver with
  | nil => simp [receiveAll, HdlcDecoder.pushAll]
  | cons byte bytes ih =>
    rw [List.map_cons, receiveAll, List.foldl_cons]
    refine ih.trans ?_
    simp only [receive, HdlcDecoder.pushAll]
    cases receiver.decoder.push byte with
    | mk frame decoder =>
      cases frame with
      | none => simp
      | some frame =>
        simp only [Option.bind_some, Option.toList_some, List.singleton_append, List.filterMap_cons]
        cases accept hkdf ifacConfig frame <;> simp

/-- Timeouts that find no data might as well not come. -/
theorem receiveAll_idle (events : List SerialEvent)
    (idle : ∀ front back, events = front ++ .timeout :: back →
      (receiver.receiveAll hkdf ifacConfig front).decoder.data = []) :
    receiver.receiveAll hkdf ifacConfig events =
      receiver.receiveAll hkdf ifacConfig ((events.filterMap SerialEvent.byte?).map .byte) := by
  -- The timeouts are dropped one by one, for each finds no data.
  induction events generalizing receiver with
  | nil => rfl
  | cons event events ih =>
    cases event with
    | byte byte => exact ih fun front back split => idle (.byte byte :: front) back (by rw [split]; rfl)
    | timeout =>
      have still : receiver.receive hkdf ifacConfig .timeout = receiver :=
        receive_timeout (idle [] events rfl)
      have rest := ih fun front back split => by
        have later := idle (.timeout :: front) back (by rw [split]; rfl)
        rw [receiveAll, List.foldl_cons, still] at later
        exact later
      rw [receiveAll, List.foldl_cons, still]
      exact rest

end SerialReceiver

end Reticulum
