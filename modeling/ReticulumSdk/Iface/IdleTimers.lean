import ReticulumSdk.Base.Clock
import ReticulumSdk.Base.Interrupted
import ReticulumSdk.Iface.IfacLaws
import ReticulumSdk.Iface.WholeFrames

/-! The idle timers of serial lines: which read loop drops only what stalled, and which drops what is read. -/

namespace Reticulum

/-- `FRAME_TIMEOUT` of a serial interface, which is also `READ_TIMEOUT` of a KISS interface. -/
def FRAME_TIMEOUT : Duration := 100000000

/-- `read_loop_byte` of a serial interface: its decoder, its last byte, and what it sent on `rx_channel`. -/
structure ByteReceiver where
  decoder : HdlcDecoder
  lastActivity : Instant
  rxChannel : List Packet

namespace ByteReceiver

variable (hkdf : HkdfSha256) (ifacConfig : Option IfacConfig)

/-- `read_loop_byte` before its first byte. -/
def new (now : Instant) : ByteReceiver := ⟨.new, now, []⟩

/-- `read_loop_byte`, one event: a byte that was read, or a poll that finds how long there was none. -/
def receive (receiver : ByteReceiver) (now : Instant) : SerialEvent → ByteReceiver
  | .byte byte =>
    let (frame, decoder) := receiver.decoder.push byte
    ⟨decoder, now, receiver.rxChannel ++ (frame.bind (SerialReceiver.accept hkdf ifacConfig)).toList⟩
  | .timeout =>
    -- The one loop that looks at the time of the last byte.
    if now.durationSince receiver.lastActivity > FRAME_TIMEOUT then
      { receiver with decoder := receiver.decoder.resetTimedOut }
    else receiver

/-- `read_loop_byte` over a row of events, each with the time it is handled at. -/
def receiveAll (receiver : ByteReceiver) (events : List (Instant × SerialEvent)) : ByteReceiver :=
  events.foldl (fun receiver event => receiver.receive hkdf ifacConfig event.1 event.2) receiver

end ByteReceiver

namespace Kiss

/-- `read_loop` of a KISS interface: its decoder, what it sent on `rx_channel` and how often on `ready_send`. -/
structure KissReceiver where
  decoder : KissDecoder
  rxChannel : List Packet
  readySent : Nat

namespace KissReceiver

variable (hkdf : HkdfSha256) (ifacConfig : Option IfacConfig)

/-- `read_loop` before its first byte. -/
def new : KissReceiver := ⟨.new, [], 0⟩

/-- `read_loop`, one event: each byte it read is pushed, and the idle timer resets the decoder. -/
def receive (receiver : KissReceiver) : SerialEvent → KissReceiver
  | .byte byte =>
    match receiver.decoder.push byte with
    | (some (.data data), decoder) => { receiver with
        decoder := decoder
        rxChannel := receiver.rxChannel ++ (SerialReceiver.accept hkdf ifacConfig data).toList }
    | (some .ready, decoder) => { receiver with decoder := decoder, readySent := receiver.readySent + 1 }
    | (none, decoder) => { receiver with decoder := decoder }
  | .timeout => { receiver with decoder := receiver.decoder.resetTimedOut }

/-- `read_loop` over a row of events. -/
def receiveAll (receiver : KissReceiver) (events : List SerialEvent) : KissReceiver :=
  events.foldl (receive hkdf ifacConfig) receiver

end KissReceiver

end Kiss

/-- The bytes of a row of events. -/
def SerialEvent.bytes (events : List SerialEvent) : Bytes := events.filterMap SerialEvent.byte?

/-- The times of a row of events do not go back. -/
def Ordered (events : List (Instant × SerialEvent)) : Prop :=
  events.Pairwise fun first second => first.1 ≤ second.1

instance (events : List (Instant × SerialEvent)) : Decidable (Ordered events) :=
  inferInstanceAs (Decidable (events.Pairwise _))

/-- Each byte of a frame comes less than the timeout after the byte before it. -/
def Spaced : HdlcDecoder → (lastByte : Instant) → List (Instant × SerialEvent) → Prop
  | _, _, [] => True
  | decoder, lastByte, (now, .byte byte) :: events =>
    (decoder.inFrame = true → now < lastByte + FRAME_TIMEOUT) ∧ Spaced (decoder.push byte).2 now events
  | decoder, lastByte, (_, .timeout) :: events => Spaced decoder lastByte events

instance Spaced.decidable : (decoder : HdlcDecoder) → (lastByte : Instant) →
    (events : List (Instant × SerialEvent)) → Decidable (Spaced decoder lastByte events)
  | _, _, [] => .isTrue trivial
  | decoder, _, (now, .byte byte) :: events =>
    have : Decidable (Spaced (decoder.push byte).2 now events) := decidable _ now events
    inferInstanceAs (Decidable (_ ∧ _))
  | decoder, lastByte, (_, .timeout) :: events => decidable decoder lastByte events

namespace HdlcDecoder

/-- Outside of a frame a decoder holds nothing. -/
def Sound (decoder : HdlcDecoder) : Prop :=
  decoder.inFrame = false → decoder.escape = false ∧ decoder.data = []

/-- The serial decoder takes frames between flags, and a reset throws it out of a frame. -/
theorem delimited : Delimited push resetTimedOut (fun decoder => decoder.data = []) Sound inFrame
    fun byte => byte = 0x7e where
  pushed decoder byte sound := by
    unfold push
    -- Data are only added inside of a frame, and taken with the frame.
    split
    · rename_i escaped
      intro outside
      exact absurd escaped (by simp [(sound outside).1])
    · rename_i plain
      split
      · split <;> simp [Sound, plain]
      · split
        · split
          · rename_i inFrame
            simp [Sound, inFrame]
          · exact sound
        · split
          · rename_i inside
            simp [Sound, inside.1]
          · exact sound
  cleared decoder sound := by
    unfold resetTimedOut
    split
    · exact fun _ => ⟨rfl, rfl⟩
    · exact sound
  pays decoder byte sound := by
    unfold push
    -- A flag opens a frame or closes one, and no other byte does either.
    split
    · simp
    · split
      · rename_i flag
        cases inFrame : decoder.inFrame <;> simp [flag]
      · rename_i other
        split
        · split <;> simp
        · split <;> simp
  still decoder idle := by simp [resetTimedOut, idle]
  loses decoder sound busy := by
    -- Data are only held inside of a frame.
    simp only [resetTimedOut, ne_eq, busy, not_false_eq_true, if_true, and_true]
    by_contra outside
    exact busy (sound (Bool.eq_false_of_not_eq_true outside)).2

end HdlcDecoder

namespace Kiss.KissDecoder

/-- A byte pushed to a decoder of which only payloads are looked at. -/
def pushPayload (decoder : KissDecoder) (byte : UInt8) : Option Bytes × KissDecoder :=
  ((decoder.push byte).1.bind KissEvent.payload?, (decoder.push byte).2)

/-- Outside of a frame a decoder holds nothing. -/
def Sound (decoder : KissDecoder) : Prop := decoder.inFrame = false → decoder.data = []

/-- A byte that is no frame end leaves a decoder inside or outside of a frame, and gives no payload out. -/
private theorem push_plain {decoder : KissDecoder} {byte : UInt8} (plain : byte ≠ FEND) :
    (decoder.pushPayload byte).1 = none ∧ (decoder.push byte).2.inFrame = decoder.inFrame ∧
      (decoder.inFrame = false → (decoder.push byte).2 = decoder) := by
  -- Only the delimiter ends a frame, so any other byte is dropped outside one and kept inside one.
  simp only [pushPayload, push, plain, and_false, false_and, if_false]
  split
  · exact ⟨rfl, rfl, fun _ => rfl⟩
  · rename_i inside
    have inFrame : decoder.inFrame = true := by
      by_contra outside
      exact inside (.inl outside)
    split
    · -- The first byte of a frame names its command.
      simp [inFrame]
    · split
      · unfold pushData
        split
        · simp [inFrame]
        · split <;> simp [inFrame]
      · split <;> simp [inFrame, KissEvent.payload?]

/-- The KISS decoder takes payloads between frame ends, and a reset throws it out of a frame. -/
theorem delimited : Delimited pushPayload resetTimedOut (fun decoder => decoder.data = []) Sound inFrame
    fun byte => byte = FEND where
  pushed decoder byte sound := by
    by_cases ends : byte = FEND
    · -- After a frame end nothing is held, whether it closes or opens.
      simp only [pushPayload, push, ends, true_and, if_true]
      split <;> simp [Sound, new]
    · -- Any other byte changes nothing outside of a frame.
      obtain ⟨-, kept, same⟩ := @push_plain decoder byte ends
      intro outside
      rw [pushPayload] at outside ⊢
      rw [kept] at outside
      rw [same outside]
      exact sound outside
  cleared decoder sound := by
    unfold resetTimedOut
    split
    · exact fun _ => rfl
    · exact sound
  pays decoder byte sound := by
    by_cases ends : byte = FEND
    · -- A frame end that closes a frame of data was preceded by one that opened it.
      cases inFrame : decoder.inFrame <;> by_cases command : decoder.command = CMD_DATA <;>
        simp [pushPayload, push, ends, inFrame, command, KissEvent.payload?, new]
    · -- Any other byte gives nothing out and leaves the decoder where it was.
      obtain ⟨silent, kept, -⟩ := @push_plain decoder byte ends
      rw [silent]
      show 2 * 0 + (decoder.push byte).2.inFrame.toNat ≤ _
      rw [kept]
      omega
  still decoder idle := by simp [resetTimedOut, idle]
  loses decoder sound busy := by
    -- Data are only held inside of a frame.
    simp only [resetTimedOut, ne_eq, busy, not_false_eq_true, if_true]
    refine ⟨?_, rfl⟩
    by_contra outside
    exact busy (sound (Bool.eq_false_of_not_eq_true outside))

end Kiss.KissDecoder

/-- The row of items and resets that a row of events is for a decoder. -/
def SerialEvent.row (events : List SerialEvent) : List (Option UInt8) := events.map SerialEvent.byte?

/-- Its items are the bytes. -/
theorem SerialEvent.row_reduce (events : List SerialEvent) :
    (row events).reduceOption = SerialEvent.bytes events := by
  simp [row, SerialEvent.bytes, List.reduceOption, List.filterMap_map]

variable {hkdf : HkdfSha256} {ifacConfig : Option IfacConfig}

/-- The read loop delivers what its decoder gives out between the resets. -/
theorem SerialReceiver.rxChannel_eq (receiver : SerialReceiver) (events : List SerialEvent) :
    (receiver.receiveAll hkdf ifacConfig events).rxChannel = receiver.rxChannel ++
      (feedReset HdlcDecoder.push HdlcDecoder.resetTimedOut receiver.decoder
        (SerialEvent.row events)).1.filterMap (accept hkdf ifacConfig) := by
  -- The induction is over the events, with the receiver as the first of them leaves it.
  induction events generalizing receiver with
  | nil => simp [receiveAll, SerialEvent.row, feedReset]
  | cons event events ih =>
    rw [receiveAll, List.foldl_cons]
    refine (ih _).trans ?_
    cases event with
    -- A tick is a reset in the row.
    | timeout => rfl
    | byte byte =>
      simp only [receive, SerialEvent.row, List.map_cons, SerialEvent.byte?, feedReset,
        List.filterMap_append, List.append_assoc]
      cases (receiver.decoder.push byte).1 with
      | none => rfl
      | some frame => cases accepted : accept hkdf ifacConfig frame <;> simp [accepted]

/-- So does the read loop of a KISS interface. -/
theorem Kiss.KissReceiver.rxChannel_eq (receiver : KissReceiver) (events : List SerialEvent) :
    (receiver.receiveAll hkdf ifacConfig events).rxChannel = receiver.rxChannel ++
      (feedReset KissDecoder.pushPayload KissDecoder.resetTimedOut receiver.decoder
        (SerialEvent.row events)).1.filterMap (SerialReceiver.accept hkdf ifacConfig) := by
  induction events generalizing receiver with
  | nil => simp [receiveAll, SerialEvent.row, feedReset]
  | cons event events ih =>
    rw [receiveAll, List.foldl_cons]
    refine (ih _).trans ?_
    cases event with
    | timeout => rfl
    | byte byte =>
      simp only [receive, SerialEvent.row, List.map_cons, SerialEvent.byte?, feedReset,
        KissDecoder.pushPayload, List.filterMap_append]
      -- An event of data is delivered if it is a packet, and any other is not.
      rcases receiver.decoder.push byte with ⟨_ | _ | _, decoder⟩
      · rfl
      · rename_i data
        cases accepted : SerialReceiver.accept hkdf ifacConfig data <;> simp [accepted, KissEvent.payload?]
      · rfl

namespace ByteReceiver

/-- After a pause in a frame that was too long no byte can follow. -/
private theorem no_byte {decoder : HdlcDecoder} {lastByte now : Instant}
    {events : List (Instant × SerialEvent)} (inFrame : decoder.inFrame = true)
    (spaced : Spaced decoder lastByte events) (late : lastByte + FRAME_TIMEOUT < now)
    (behind : ∀ event ∈ events, now ≤ event.1) : SerialEvent.bytes (events.map Prod.snd) = [] := by
  -- The first byte would come within the timeout, and after the pause.
  induction events with
  | nil => rfl
  | cons event events ih =>
    obtain ⟨time, kind⟩ := event
    have rest := fun event member => behind event (List.mem_cons_of_mem _ member)
    cases kind with
    | byte byte =>
      -- In a frame a byte must come before the pause is over.
      have soon := spaced.1 inFrame
      have here := behind _ List.mem_cons_self
      exact absurd (Nat.lt_of_lt_of_le late here) (Nat.lt_asymm soon)
    | timeout => exact ih spaced rest

/-- Polls alone deliver nothing. -/
private theorem receiveAll_polls {receiver : ByteReceiver} {events : List (Instant × SerialEvent)}
    (polls : SerialEvent.bytes (events.map Prod.snd) = []) :
    (receiver.receiveAll hkdf ifacConfig events).rxChannel = receiver.rxChannel := by
  -- No event carries a byte, so each is an empty read, which delivers nothing.
  induction events generalizing receiver with
  | nil => rfl
  | cons event events ih =>
    obtain ⟨time, kind⟩ := event
    cases kind with
    | byte byte => simp [SerialEvent.bytes, SerialEvent.byte?] at polls
    | timeout =>
      rw [receiveAll, List.foldl_cons]
      refine (ih polls).trans ?_
      simp only [receive]
      split <;> rfl

/-- With its bytes in time, `read_loop_byte` delivers what the decoder gives out, wherever it polls. -/
theorem rxChannel_eq {receiver : ByteReceiver} {events : List (Instant × SerialEvent)}
    (sound : receiver.decoder.Sound) (ordered : Ordered events)
    (spaced : Spaced receiver.decoder receiver.lastActivity events) :
    (receiver.receiveAll hkdf ifacConfig events).rxChannel = receiver.rxChannel ++
      (receiver.decoder.pushAll (SerialEvent.bytes (events.map Prod.snd))).1.filterMap
        (SerialReceiver.accept hkdf ifacConfig) := by
  -- The induction is over the events; a poll resets nothing, or is followed by no byte.
  induction events generalizing receiver with
  | nil => simp [receiveAll, SerialEvent.bytes, HdlcDecoder.pushAll]
  | cons event events ih =>
    obtain ⟨now, kind⟩ := event
    obtain ⟨behind, later⟩ := List.pairwise_cons.mp ordered
    rw [receiveAll, List.foldl_cons]
    cases kind with
    | byte byte =>
      refine (ih (HdlcDecoder.delimited.pushed _ byte sound) later spaced.2).trans ?_
      simp only [receive, List.map_cons, SerialEvent.bytes, List.filterMap_cons, SerialEvent.byte?,
        HdlcDecoder.pushAll, List.filterMap_append, List.append_assoc]
      cases (receiver.decoder.push byte).1 with
      | none => rfl
      | some frame => cases accepted : SerialReceiver.accept hkdf ifacConfig frame <;> simp [accepted]
    | timeout =>
      by_cases late : now.durationSince receiver.lastActivity > FRAME_TIMEOUT
      · by_cases idle : receiver.decoder.data = []
        · -- A decoder that holds nothing is not changed.
          have same : receiver.receive hkdf ifacConfig now .timeout = receiver := by
            simp [receive, HdlcDecoder.resetTimedOut, idle]
          simp only [same]
          exact ih sound later spaced
        · -- A decoder that holds part of a frame is reset, and the stream ends there.
          have inFrame := (HdlcDecoder.delimited.loses _ sound idle).1
          have long : receiver.lastActivity + FRAME_TIMEOUT < now := Nat.add_lt_of_lt_sub' late
          have silent := @no_byte _ _ _ events inFrame spaced long behind
          have silent' : SerialEvent.bytes (.timeout :: events.map Prod.snd) = [] := silent
          refine (receiveAll_polls silent).trans ?_
          simp only [receive, if_pos late, List.map_cons, silent']
          simp [HdlcDecoder.pushAll]
      · -- A poll that comes early does nothing.
        have same : receiver.receive hkdf ifacConfig now .timeout = receiver := by
          simp [receive, late]
        simp only [same]
        exact ih sound later spaced

end ByteReceiver

/-- A frame has two flags. -/
theorem Hdlc.countP_frame (payload : Bytes) : (Hdlc.frame payload).countP (fun byte => byte = 0x7e) = 2 := by
  -- Between them every byte is escaped.
  have inner : (Hdlc.escape payload).countP (fun byte => byte = 0x7e) = 0 := by
    rw [List.countP_eq_zero]
    intro byte member flag
    have same : byte = HDLC_FRAME_FLAG := of_decide_eq_true flag
    exact Hdlc.flag_notMem_escape payload (same ▸ member)
  simp [Hdlc.frame, FrameReader.enclose, HDLC_FRAME_FLAG, inner]

/-- A frame of data has two frame ends. -/
theorem Kiss.countP_encodeDataFrame (payload : Bytes) :
    (encodeDataFrame payload).countP (fun byte => byte = FEND) = 2 := by
  -- The escaped payload holds no delimiter, so only the two ends of the frame count.
  have inner : (escapeInto payload).countP (fun byte => byte = FEND) = 0 := by
    rw [List.countP_eq_zero]
    intro byte member ends
    have same : byte = FEND := of_decide_eq_true ends
    exact fend_notMem_escapeInto payload (same ▸ member)
  have command : CMD_DATA ≠ FEND := by decide
  simp [encodeDataFrame, inner, command]

/-- The payloads a KISS decoder gives out are those of its events. -/
theorem Kiss.KissDecoder.feedAll_pushPayload (decoder : KissDecoder) (bytes : Bytes) :
    (feedAll pushPayload decoder bytes).1 = (feedAll push decoder bytes).1.filterMap KissEvent.payload? := by
  -- Both decoders are in the same state all along.
  have step : ∀ state state' byte, state = state' →
      (push state byte).1.bind KissEvent.payload? = (pushPayload state' byte).1.map id ∧
        (push state byte).2 = (pushPayload state' byte).2 := by
    intro state state' byte same
    rw [same, Option.map_id]
    exact ⟨rfl, rfl⟩
  rw [FeedAll.simulates step (rfl : decoder = decoder) bytes, List.map_id]

/-- No tick of a serial read loop finds part of a frame. -/
def SerialReceiver.TicksIdle (events : List SerialEvent) : Prop :=
  IdleResets HdlcDecoder.push (fun decoder => decoder.data = []) .new (SerialEvent.row events)

/-- No tick of a KISS read loop finds part of a frame. -/
def Kiss.KissReceiver.TicksIdle (events : List SerialEvent) : Prop :=
  IdleResets KissDecoder.pushPayload (fun decoder => decoder.data = []) .new (SerialEvent.row events)

/-- Payloads that are all packets, and short enough for a frame. -/
def Deliverable (hkdf : HkdfSha256) (ifacConfig : Option IfacConfig) (limit : Nat) (payloads : List Bytes) :
    Prop :=
  ∀ payload ∈ payloads, payload.length ≤ limit ∧
    (SerialReceiver.accept hkdf ifacConfig payload).isSome = true

instance (events : List SerialEvent) : Decidable (SerialReceiver.TicksIdle events) :=
  inferInstanceAs (Decidable (IdleResets ..))

instance (events : List SerialEvent) : Decidable (Kiss.KissReceiver.TicksIdle events) :=
  inferInstanceAs (Decidable (IdleResets ..))

/-- With idle ticks the read loop delivers what its decoder gives out, and of a row of frames only then. -/
theorem SerialReceiver.ticksIdle (hkdf : HkdfSha256) (ifacConfig : Option IfacConfig)
    (ticked : List SerialEvent) :
    (TicksIdle ticked → (new.receiveAll hkdf ifacConfig ticked).rxChannel =
      (HdlcDecoder.new.pushAll (SerialEvent.bytes ticked)).1.filterMap (accept hkdf ifacConfig)) ∧
    ∀ payloads : List Bytes, SerialEvent.bytes ticked = payloads.flatMap Hdlc.frame →
      Deliverable hkdf ifacConfig SERIAL_HW_MTU payloads →
        ((new.receiveAll hkdf ifacConfig ticked).rxChannel =
          (HdlcDecoder.new.pushAll (SerialEvent.bytes ticked)).1.filterMap (accept hkdf ifacConfig) ↔
            TicksIdle ticked) := by
  have sound : HdlcDecoder.new.Sound := fun _ => ⟨rfl, rfl⟩
  rw [rxChannel_eq, HdlcDecoder.pushAll_eq_feedAll]
  refine ⟨fun quiet => ?_, fun payloads row valid => ?_⟩
  · -- Ticks that are idle change nothing.
    rw [← SerialEvent.row_reduce, ← quiet.feedReset_eq HdlcDecoder.delimited.still]
    rfl
  · -- Of a row of frames the decoder gives out all payloads, and each takes two flags.
    have taken := HdlcDecoder.pushAll_frames (fun payload member => (valid payload member).1) []
    rw [HdlcDecoder.pushAll_eq_feedAll] at taken
    rw [row, show feedAll HdlcDecoder.push .new _ = feedAll HdlcDecoder.push ⟨false, false, []⟩ _ from rfl,
      taken]
    exact HdlcDecoder.delimited.complete_iff sound rfl (fun payload _ => Hdlc.countP_frame payload) taken
      (fun payload member => (valid payload member).2) ((SerialEvent.row_reduce ticked).trans row)

/-- So does the read loop of a KISS interface. -/
theorem Kiss.KissReceiver.ticksIdle (hkdf : HkdfSha256) (ifacConfig : Option IfacConfig)
    (ticked : List SerialEvent) :
    (TicksIdle ticked → (new.receiveAll hkdf ifacConfig ticked).rxChannel =
      ((feedAll KissDecoder.push .new (SerialEvent.bytes ticked)).1.filterMap
        KissEvent.payload?).filterMap (SerialReceiver.accept hkdf ifacConfig)) ∧
    ∀ payloads : List Bytes, SerialEvent.bytes ticked = payloads.flatMap encodeDataFrame →
      Deliverable hkdf ifacConfig HW_MTU payloads →
        ((new.receiveAll hkdf ifacConfig ticked).rxChannel =
          ((feedAll KissDecoder.push .new (SerialEvent.bytes ticked)).1.filterMap
            KissEvent.payload?).filterMap (SerialReceiver.accept hkdf ifacConfig) ↔ TicksIdle ticked) := by
  have sound : KissDecoder.new.Sound := fun _ => rfl
  rw [rxChannel_eq, ← KissDecoder.feedAll_pushPayload]
  refine ⟨fun quiet => ?_, fun payloads row valid => ?_⟩
  · -- Ticks that are idle change nothing.
    rw [← SerialEvent.row_reduce, ← quiet.feedReset_eq KissDecoder.delimited.still]
    rfl
  · -- Of a row of frames the decoder gives out all payloads, and each takes two frame ends.
    have given := (FeedAll.frames (fun payload member => KissDecoder.taken (valid payload member).1)
      (show KissDecoder.new.InStep by simp [KissDecoder.InStep, KissDecoder.new])).1
    have taken : (feedAll KissDecoder.pushPayload .new (payloads.flatMap encodeDataFrame)).1 = payloads := by
      rw [KissDecoder.feedAll_pushPayload, given, List.filterMap_map]
      exact List.filterMap_some
    rw [row, taken]
    exact KissDecoder.delimited.complete_iff sound rfl (fun payload _ => countP_encodeDataFrame payload)
      taken (fun payload member => (valid payload member).2) ((SerialEvent.row_reduce ticked).trans row)

open Kiss in
/--
Where bytes are in time `read_loop_byte` delivers every frame of the stream. The read loops that tick at
fixed intervals deliver the same in every run in which no tick finds part of a frame; and for a row of
frames that are all packets, in no other run.
-/
theorem read_loops_agree (hkdf : HkdfSha256) (ifacConfig : Option IfacConfig) :
    (∀ start polled ticked, Ordered polled → Spaced .new start polled →
      SerialEvent.bytes (polled.map Prod.snd) = SerialEvent.bytes ticked →
        ((ByteReceiver.new start).receiveAll hkdf ifacConfig polled).rxChannel =
            (HdlcDecoder.new.pushAll (SerialEvent.bytes ticked)).1.filterMap
              (SerialReceiver.accept hkdf ifacConfig) ∧
          (SerialReceiver.TicksIdle ticked →
            (SerialReceiver.new.receiveAll hkdf ifacConfig ticked).rxChannel =
              ((ByteReceiver.new start).receiveAll hkdf ifacConfig polled).rxChannel) ∧
          ∀ payloads : List Bytes, SerialEvent.bytes ticked = payloads.flatMap Hdlc.frame →
            Deliverable hkdf ifacConfig SERIAL_HW_MTU payloads →
              ((SerialReceiver.new.receiveAll hkdf ifacConfig ticked).rxChannel =
                ((ByteReceiver.new start).receiveAll hkdf ifacConfig polled).rxChannel ↔
                  SerialReceiver.TicksIdle ticked)) ∧
    ∀ ticked,
      (KissReceiver.TicksIdle ticked → (KissReceiver.new.receiveAll hkdf ifacConfig ticked).rxChannel =
        ((feedAll KissDecoder.push .new (SerialEvent.bytes ticked)).1.filterMap
          KissEvent.payload?).filterMap (SerialReceiver.accept hkdf ifacConfig)) ∧
      ∀ payloads : List Bytes, SerialEvent.bytes ticked = payloads.flatMap encodeDataFrame →
        Deliverable hkdf ifacConfig HW_MTU payloads →
          ((KissReceiver.new.receiveAll hkdf ifacConfig ticked).rxChannel =
            ((feedAll KissDecoder.push .new (SerialEvent.bytes ticked)).1.filterMap
              KissEvent.payload?).filterMap (SerialReceiver.accept hkdf ifacConfig) ↔
                KissReceiver.TicksIdle ticked) := by
  refine ⟨fun start polled ticked ordered spaced same => ?_, fun ticked => ?_⟩
  · have sound : (ByteReceiver.new start).decoder.Sound := fun _ => ⟨rfl, rfl⟩
    -- What is delivered byte by byte is what the other loop is compared with.
    have whole : ((ByteReceiver.new start).receiveAll hkdf ifacConfig polled).rxChannel =
        (HdlcDecoder.new.pushAll (SerialEvent.bytes ticked)).1.filterMap
          (SerialReceiver.accept hkdf ifacConfig) := by
      rw [← same]
      exact ByteReceiver.rxChannel_eq sound ordered spaced
    rw [whole]
    exact ⟨rfl, SerialReceiver.ticksIdle hkdf ifacConfig ticked⟩
  · exact KissReceiver.ticksIdle hkdf ifacConfig ticked

/-- The bytes of the smallest packet. -/
private def emptyPacket : Bytes := List.replicate RETICULUM_HEADER_MINSIZE 0

/-- The frame of the smallest packet, a byte every ten milliseconds. -/
private def slowFrame : List (Instant × SerialEvent) :=
  (Hdlc.frame emptyPacket).zipIdx.map fun (byte, i) => (i * 10000000, .byte byte)

/-- A frame with the ticks of a timer before and behind it. -/
private def aroundFrame : List SerialEvent :=
  .timeout :: ((Hdlc.frame emptyPacket).map .byte ++ [.timeout])

/-- A frame of data with such ticks. -/
private def aroundData : List SerialEvent :=
  .timeout :: ((Kiss.encodeDataFrame emptyPacket).map .byte ++ [.timeout])

/-- A frame that comes between two ticks is delivered by both loops. -/
theorem read_loops_agree_around :
    (SerialReceiver.new.receiveAll .sample none aroundFrame).rxChannel =
        ((ByteReceiver.new 0).receiveAll .sample none slowFrame).rxChannel ∧
      (Kiss.KissReceiver.new.receiveAll .sample none aroundData).rxChannel =
        ((feedAll Kiss.KissDecoder.push .new (SerialEvent.bytes aroundData)).1.filterMap
          Kiss.KissEvent.payload?).filterMap (SerialReceiver.accept .sample none) := by
  -- The tick lies outside the frame, which is all that the general result asks for.
  obtain ⟨serial, kiss⟩ := read_loops_agree .sample none
  obtain ⟨-, agree, -⟩ := serial 0 slowFrame aroundFrame (by decide +kernel) (by decide +kernel)
    (by decide +kernel)
  exact ⟨agree (by decide +kernel), (kiss aroundData).1 (by decide +kernel)⟩

/-- A frame of bytes in time with a tick between its tenth byte and its eleventh. -/
private def tickedFrame : List SerialEvent :=
  ((Hdlc.frame emptyPacket).take 10).map .byte ++ .timeout :: ((Hdlc.frame emptyPacket).drop 10).map .byte

/-- A tick within a frame whose bytes are all in time drops the frame. -/
theorem live_frame_dropped : ¬ ∀ (hkdf : HkdfSha256) (ifacConfig : Option IfacConfig) start polled ticked,
    Ordered polled → Spaced .new start polled →
      SerialEvent.bytes (polled.map Prod.snd) = SerialEvent.bytes ticked →
        (SerialReceiver.new.receiveAll hkdf ifacConfig ticked).rxChannel =
          ((ByteReceiver.new start).receiveAll hkdf ifacConfig polled).rxChannel := by
  -- The frame is read whole at one byte a poll and cut at the tick, so one loop delivers it alone.
  intro agree
  have same := agree .sample none 0 slowFrame tickedFrame (by decide +kernel) (by decide +kernel)
    (by decide +kernel)
  have counted := congrArg List.length same
  revert counted
  decide +kernel

end Reticulum
