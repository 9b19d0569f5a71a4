import ReticulumSdk.Base.Feeding
import ReticulumSdk.Hash

/-! Frames of a terminal node controller and of a radio: their two decoders, which treat the frame end differently. -/

namespace Reticulum

namespace Kiss

/-- `FEND`, which ends a frame and begins one. -/
def FEND : UInt8 := 0xc0
/-- `FESC`. -/
def FESC : UInt8 := 0xdb
/-- `TFEND`: an escaped frame end. -/
def TFEND : UInt8 := 0xdc
/-- `TFESC`: an escaped escape. -/
def TFESC : UInt8 := 0xdd
/-- `CMD_UNKNOWN`: no command has come yet. -/
def CMD_UNKNOWN : UInt8 := 0xfe
/-- `CMD_DATA`. -/
def CMD_DATA : UInt8 := 0x00
/-- `CMD_READY`. -/
def CMD_READY : UInt8 := 0x0f
/-- `HW_MTU` of a KISS interface. -/
def HW_MTU : Nat := 564

/-- What `escape_into` writes for a byte. -/
def escapeByte (byte : UInt8) : Bytes :=
  if byte = FEND then [FESC, TFEND] else if byte = FESC then [FESC, TFESC] else [byte]

/-- What `escape_into` appends to a frame. -/
def escapeInto (data : Bytes) : Bytes := data.flatMap escapeByte

/-- The byte that follows an escape, as both decoders read it. -/
def unescape (byte : UInt8) : UInt8 :=
  if byte = TFEND then FEND else if byte = TFESC then FESC else byte

/-- `encode_data_frame`. -/
def encodeDataFrame (data : Bytes) : Bytes := FEND :: CMD_DATA :: (escapeInto data ++ [FEND])

/-- `KissEvent`. -/
inductive KissEvent where
  | data (payload : Bytes)
  | ready
  deriving DecidableEq

/-- `KissDecoder` of a KISS interface. -/
structure KissDecoder where
  inFrame : Bool
  escape : Bool
  command : UInt8
  data : Bytes
  deriving DecidableEq

namespace KissDecoder

/-- `KissDecoder::new`. -/
def new : KissDecoder := ⟨false, false, CMD_UNKNOWN, []⟩

/-- The end of `KissDecoder::push`: a byte inside a frame of data. -/
def pushData (decoder : KissDecoder) (byte : UInt8) : Option KissEvent × KissDecoder :=
  if byte = FESC then (none, { decoder with escape := true })
  else if decoder.escape then
    (none, { decoder with escape := false, data := decoder.data ++ [unescape byte] })
  else (none, { decoder with data := decoder.data ++ [byte] })

/-- `KissDecoder::push`: the event of the byte, if it has one. -/
def push (decoder : KissDecoder) (byte : UInt8) : Option KissEvent × KissDecoder :=
  if decoder.inFrame ∧ byte = FEND ∧ decoder.command = CMD_DATA then
    (some (.data decoder.data), new)
  else if byte = FEND then (none, ⟨true, false, CMD_UNKNOWN, []⟩)
  else if ¬ decoder.inFrame ∨ decoder.data.length ≥ HW_MTU then (none, decoder)
  else if decoder.data = [] ∧ decoder.command = CMD_UNKNOWN then
    -- Only the command of the port, not its number.
    (none, { decoder with command := byte &&& 0x0f })
  else if decoder.command = CMD_DATA then decoder.pushData byte
  else if decoder.command = CMD_READY then (some .ready, decoder)
  else (none, decoder)

/-- `KissDecoder::reset_timed_out`. -/
def resetTimedOut (decoder : KissDecoder) : KissDecoder := if decoder.data ≠ [] then new else decoder

/-- The next frame end opens a frame. -/
def InStep (decoder : KissDecoder) : Prop := ¬ (decoder.inFrame = true ∧ decoder.command = CMD_DATA)

end KissDecoder

variable {data payload : Bytes}

/-- Escaping leaves no frame end in a payload. -/
theorem fend_notMem_escapeInto (data : Bytes) : FEND ∉ escapeInto data := by
  -- The two special bytes are escaped, and no escape contains a frame end.
  simp only [escapeInto, List.mem_flatMap, not_exists, not_and]
  intro byte _
  unfold escapeByte
  split
  · decide
  · rename_i other
    split
    · decide
    · simpa using Ne.symm other

namespace KissDecoder

/-- Inside a frame the escaped form of a byte is decoded, while there is room for it. -/
private theorem feed_escapeByte (byte : UInt8) (room : data.length < HW_MTU) :
    feedAll push ⟨true, false, CMD_DATA, data⟩ (escapeByte byte) =
      ([], ⟨true, false, CMD_DATA, data ++ [byte]⟩) := by
  have inside := Nat.not_le.mpr room
  have known : CMD_DATA ≠ CMD_UNKNOWN := by decide
  unfold escapeByte
  split
  · -- An escaped frame end is two bytes, of which the first is remembered.
    rename_i ends
    have first : FESC ≠ FEND := by decide
    have second : TFEND ≠ FEND ∧ TFEND ≠ FESC := by decide
    simp [push, pushData, inside, known, first, second, unescape, ends]
  · rename_i other
    split
    · -- So is an escaped escape.
      rename_i escapes
      have first : FESC ≠ FEND := by decide
      have second : TFESC ≠ FEND ∧ TFESC ≠ FESC ∧ TFESC ≠ TFEND := by decide
      simp [push, pushData, inside, known, first, second, unescape, escapes]
    · -- Any other byte is taken as it is.
      rename_i plain
      simp [push, pushData, inside, known, other, plain]

/-- So is an escaped payload. -/
private theorem feed_escapeInto (data payload : Bytes) (fits : data.length + payload.length ≤ HW_MTU) :
    feedAll push ⟨true, false, CMD_DATA, data⟩ (escapeInto payload) =
      ([], ⟨true, false, CMD_DATA, data ++ payload⟩) := by
  -- The induction is over the payload, behind the data that were decoded already.
  induction payload generalizing data with
  | nil => simp [escapeInto]
  | cons byte payload ih =>
    rw [List.length_cons] at fits
    have rest := ih (data ++ [byte]) (by rw [List.length_append, List.length_singleton]; omega)
    rw [escapeInto, List.flatMap_cons, FeedAll.append, feed_escapeByte byte (by omega), ← escapeInto, rest,
      List.append_assoc]
    rfl

/-- A decoder in step takes a frame of data. -/
theorem taken (fits : payload.length ≤ HW_MTU) :
    FeedAll.Taken push InStep (encodeDataFrame payload) (.data payload) := by
  -- A frame is opened, told its command, filled with what was escaped, and closed.
  intro decoder inStep
  -- The frame end opens the frame, and the command is known after the next byte.
  have opened : decoder.push FEND = (none, ⟨true, false, CMD_UNKNOWN, []⟩) := by
    rw [push, if_neg fun closes => inStep ⟨closes.1, closes.2.2⟩, if_pos rfl]
  have told : push ⟨true, false, CMD_UNKNOWN, []⟩ CMD_DATA = (none, ⟨true, false, CMD_DATA, []⟩) := by
    decide
  have decoded := feed_escapeInto [] payload (by simpa using fits)
  rw [List.nil_append] at decoded
  have closed : push ⟨true, false, CMD_DATA, payload⟩ FEND = (some (.data payload), new) := by
    rw [push, if_pos ⟨rfl, rfl, rfl⟩]
  rw [encodeDataFrame, FeedAll.cons, opened, FeedAll.cons, told, FeedAll.append, decoded, FeedAll.cons,
    closed]
  exact ⟨rfl, by simp [InStep, new]⟩

/-- Outside a frame nothing but a frame end is looked at. -/
private theorem feed_outside {decoder : KissDecoder} (outside : decoder.inFrame = false) {bytes : Bytes}
    (quiet : FEND ∉ bytes) : feedAll push decoder bytes = ([], decoder) := by
  -- Outside of a frame every byte but a frame end is ignored.
  induction bytes with
  | nil => rfl
  | cons byte bytes ih =>
    rw [List.mem_cons, not_or] at quiet
    have ignored : decoder.push byte = (none, decoder) := by
      simp [push, outside, Ne.symm quiet.1]
    rw [FeedAll.cons, ignored, ih quiet.2]
    rfl

/-- Any decoder misses one frame at most, where the frame end that opens it closes what there was before. -/
theorem misses_at_most_one (fits : payload.length ≤ HW_MTU) :
    FeedAll.Resynchronises push InStep (encodeDataFrame payload) (.data payload) := by
  intro decoder
  by_cases inStep : decoder.InStep
  · -- A decoder in step takes the frame.
    obtain ⟨given, still⟩ := taken fits decoder inStep
    exact ⟨still, [], _, given, Nat.zero_le _, .inl rfl⟩
  · obtain ⟨inFrame, command⟩ := not_not.mp inStep
    -- Any other is inside a frame of data, which the frame end closes.
    have closed : decoder.push FEND = (some (.data decoder.data), new) := by
      rw [push, if_pos ⟨inFrame, rfl, command⟩]
    -- The frame itself is then outside of any, up to its end, which opens one.
    have quiet : FEND ∉ CMD_DATA :: escapeInto payload := by
      rw [List.mem_cons, not_or]
      exact ⟨by decide, fend_notMem_escapeInto payload⟩
    have missed : feedAll push new (CMD_DATA :: escapeInto payload) = ([], new) := feed_outside rfl quiet
    have opened : push new FEND = (none, ⟨true, false, CMD_UNKNOWN, []⟩) := by decide
    have whole : feedAll push decoder (encodeDataFrame payload) =
        ([.data decoder.data], ⟨true, false, CMD_UNKNOWN, []⟩) := by
      rw [encodeDataFrame, ← List.cons_append, FeedAll.cons, closed, FeedAll.append, missed,
        FeedAll.cons, opened]
      rfl
    rw [whole]
    exact ⟨by simp [InStep, CMD_UNKNOWN, CMD_DATA], [_], [], rfl, Nat.le_refl _, .inr rfl⟩

end KissDecoder

end Kiss

namespace RNode

open Kiss

/-- `RNODE_HW_MTU`. -/
def RNODE_HW_MTU : Nat := 508

/-- `encode_frame`. -/
def encodeFrame (command : UInt8) (payload : Bytes) : Bytes :=
  FEND :: command :: (escapeInto payload ++ [FEND])

/-- `KissFrame`. -/
structure KissFrame where
  command : UInt8
  payload : Bytes
  deriving DecidableEq

/-- `KissDecoder` of a radio. -/
structure KissDecoder where
  inFrame : Bool
  escape : Bool
  command : UInt8
  payload : Bytes
  deriving DecidableEq

namespace KissDecoder

/-- `KissDecoder::new`. -/
def new : KissDecoder := ⟨false, false, CMD_UNKNOWN, []⟩

/-- The end of `KissDecoder::push`: a byte of the payload, which is given up when it is too long. -/
def pushPayload (decoder : KissDecoder) (byte : UInt8) : KissDecoder :=
  if decoder.payload.length ≥ RNODE_HW_MTU then new
  else { decoder with payload := decoder.payload ++ [byte] }

/-- `KissDecoder::push`: the frame that the byte closes, if it closes one. -/
def push (decoder : KissDecoder) (byte : UInt8) : Option KissFrame × KissDecoder :=
  if byte = FEND then
    (if decoder.inFrame ∧ decoder.command ≠ CMD_UNKNOWN then some ⟨decoder.command, decoder.payload⟩
      else none, ⟨true, false, CMD_UNKNOWN, []⟩)
  else if ¬ decoder.inFrame then (none, decoder)
  else if decoder.command = CMD_UNKNOWN then (none, { decoder with command := byte })
  else if decoder.escape then (none, { decoder with escape := false }.pushPayload (unescape byte))
  else if byte = FESC then (none, { decoder with escape := true })
  else (none, decoder.pushPayload byte)

/-- The next frame end closes no frame. -/
def InStep (decoder : KissDecoder) : Prop :=
  ¬ (decoder.inFrame = true ∧ decoder.command ≠ CMD_UNKNOWN)

variable {payload : Bytes} {command : UInt8} {decoder : KissDecoder}

/-- Inside a frame the escaped form of a byte is decoded, while there is room for it. -/
private theorem feed_escapeByte (byte : UInt8) (known : command ≠ CMD_UNKNOWN)
    (room : payload.length < RNODE_HW_MTU) :
    feedAll push ⟨true, false, command, payload⟩ (escapeByte byte) =
      ([], ⟨true, false, command, payload ++ [byte]⟩) := by
  have inside := Nat.not_le.mpr room
  unfold escapeByte
  split
  · -- An escaped frame end is two bytes, of which the first is remembered.
    rename_i ends
    have first : FESC ≠ FEND := by decide
    have second : TFEND ≠ FEND := by decide
    simp [push, pushPayload, inside, known, first, second, unescape, ends]
  · rename_i other
    split
    · rename_i escapes
      have first : FESC ≠ FEND := by decide
      have second : TFESC ≠ FEND ∧ TFESC ≠ TFEND := by decide
      simp [push, pushPayload, inside, known, first, second, unescape, escapes]
    · rename_i plain
      simp [push, pushPayload, inside, known, other, plain]

/-- So is an escaped payload. -/
private theorem feed_escapeInto (known : command ≠ CMD_UNKNOWN) (before payload : Bytes)
    (fits : before.length + payload.length ≤ RNODE_HW_MTU) :
    feedAll push ⟨true, false, command, before⟩ (escapeInto payload) =
      ([], ⟨true, false, command, before ++ payload⟩) := by
  -- The induction is over the payload, behind what was decoded already.
  induction payload generalizing before with
  | nil => simp [escapeInto]
  | cons byte payload ih =>
    rw [List.length_cons] at fits
    have rest := ih (before ++ [byte]) (by rw [List.length_append, List.length_singleton]; omega)
    rw [escapeInto, List.flatMap_cons, FeedAll.append, feed_escapeByte byte known (by omega),
      ← escapeInto, rest, List.append_assoc]
    rfl

/-- Every frame end opens a frame. -/
theorem push_fend (decoder : KissDecoder) :
    (decoder.push FEND).2 = ⟨true, false, CMD_UNKNOWN, []⟩ := by
  rw [push, if_pos rfl]

/-- One that closes no frame gives out none. -/
theorem push_fend_inStep (inStep : decoder.InStep) :
    decoder.push FEND = (none, ⟨true, false, CMD_UNKNOWN, []⟩) := by
  rw [push, if_pos rfl, if_neg inStep]

/-- A decoder in step takes a frame of any command. -/
theorem taken (plain : command ≠ FEND) (known : command ≠ CMD_UNKNOWN)
    (fits : payload.length ≤ RNODE_HW_MTU) :
    FeedAll.Taken push InStep (encodeFrame command payload) ⟨command, payload⟩ := by
  intro decoder inStep
  have opened := push_fend_inStep inStep
  have told : push ⟨true, false, CMD_UNKNOWN, []⟩ command = (none, ⟨true, false, command, []⟩) := by
    simp [push, plain]
  have decoded := feed_escapeInto known [] payload (by simpa using fits)
  rw [List.nil_append] at decoded
  have closed : push ⟨true, false, command, payload⟩ FEND =
      (some ⟨command, payload⟩, ⟨true, false, CMD_UNKNOWN, []⟩) := by
    rw [push, if_pos rfl, if_pos ⟨rfl, known⟩]
  rw [encodeFrame, FeedAll.cons, opened, FeedAll.cons, told, FeedAll.append, decoded, FeedAll.cons,
    closed]
  exact ⟨rfl, by simp [InStep]⟩

/-- After a frame end that closes what there was before, the rest of a row of frames is as from the start. -/
theorem feed_fend (decoder : KissDecoder) (bytes : Bytes) :
    (feedAll push decoder (FEND :: bytes)).1 =
      (decoder.push FEND).1.toList ++ (feedAll push new (FEND :: bytes)).1 := by
  -- A frame end brings any decoder to the start of a frame, whatever it gives out for it.
  have start : push new FEND = (none, ⟨true, false, CMD_UNKNOWN, []⟩) := by decide
  rw [FeedAll.cons, FeedAll.cons, push_fend, start]
  rfl

end KissDecoder

end RNode

open Kiss RNode

/--
Rows of encoded frames decode to their payloads in order from the start, and after whatever bytes came
before them to these payloads with one spurious frame in front at most, and in a decoder whose frame ends
only close without the first of them at most.
-/
theorem kiss_self_synchronising {payloads : List Bytes} {frames : List KissFrame}
    (short : ∀ payload ∈ payloads, payload.length ≤ HW_MTU)
    (formed : ∀ frame ∈ frames, frame.command ≠ FEND ∧ frame.command ≠ CMD_UNKNOWN ∧
      frame.payload.length ≤ RNODE_HW_MTU) :
    ((feedAll Kiss.KissDecoder.push .new (payloads.flatMap encodeDataFrame)).1 =
        payloads.map KissEvent.data ∧
      ∀ decoder, ∃ spurious kept,
        (feedAll Kiss.KissDecoder.push decoder (payloads.flatMap encodeDataFrame)).1 = spurious ++ kept ∧
          spurious.length ≤ 1 ∧
          (kept = payloads.map KissEvent.data ∨ kept = payloads.tail.map KissEvent.data)) ∧
    ((feedAll RNode.KissDecoder.push .new
        (frames.flatMap fun frame => encodeFrame frame.command frame.payload)).1 = frames ∧
      ∀ decoder, ∃ spurious,
        (feedAll RNode.KissDecoder.push decoder
          (frames.flatMap fun frame => encodeFrame frame.command frame.payload)).1 = spurious ++ frames ∧
          spurious.length ≤ 1) := by
  -- Each decoder takes every frame while it is in step, and is so after the first.
  have taken := fun payload member => Kiss.KissDecoder.taken (short payload member)
  have first := fun payload member => Kiss.KissDecoder.misses_at_most_one (short payload member)
  have whole : (feedAll RNode.KissDecoder.push .new
      (frames.flatMap fun frame => encodeFrame frame.command frame.payload)).1 = frames := by
    have each := fun frame member => RNode.KissDecoder.taken (formed frame member).1
      (formed frame member).2.1 (formed frame member).2.2
    exact (FeedAll.frames each (by simp [RNode.KissDecoder.InStep, RNode.KissDecoder.new])).1.trans
      (List.map_id _)
  refine ⟨⟨(FeedAll.frames taken (by simp [Kiss.KissDecoder.InStep, Kiss.KissDecoder.new])).1,
    FeedAll.frames_of_any taken first⟩, whole, fun decoder => ?_⟩
  cases frames with
  | nil => exact ⟨[], rfl, Nat.zero_le _⟩
  | cons frame frames =>
    -- The frame end that opens the first frame closes what there was before it.
    rw [List.flatMap_cons, encodeFrame, List.cons_append] at whole ⊢
    refine ⟨_, (RNode.KissDecoder.feed_fend decoder _).trans (congrArg _ whole), ?_⟩
    cases (decoder.push FEND).1 <;> simp

/-- Payloads of nothing but bytes that are escaped. -/
theorem kiss_self_synchronising_escapes :
    (feedAll Kiss.KissDecoder.push .new ([[FEND, FESC], []].flatMap encodeDataFrame)).1 =
        [[FEND, FESC], []].map KissEvent.data ∧
      (feedAll RNode.KissDecoder.push .new ([⟨FESC, [FEND, TFEND]⟩].flatMap fun frame : KissFrame =>
        encodeFrame frame.command frame.payload)).1 = [⟨FESC, [FEND, TFEND]⟩] := by
  -- Payloads and commands of special bytes are as good as any.
  obtain ⟨⟨kiss, -⟩, rnode, -⟩ := @kiss_self_synchronising [[FEND, FESC], []] [⟨FESC, [FEND, TFEND]⟩]
    (by decide) (by decide)
  exact ⟨kiss, rnode⟩

end Reticulum
