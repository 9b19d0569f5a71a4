import ReticulumSdk.Iface.Kiss
import ReticulumSdk.Iface.Serial

/-! Which frames the decoders of a serial line give out whole, and which they cut. -/

namespace Reticulum

/-- Cutting what is too long is leaving it out exactly when nothing is too long. -/
theorem map_cut_eq_iff {α : Type} {cut whole : α → Bytes} {limit : Nat}
    (fits : ∀ content, (whole content).length ≤ limit → cut content = whole content) {contents : List α} :
    contents.map cut = (contents.map whole).filter (·.length ≤ limit) ↔
      ∀ content ∈ contents, (whole content).length ≤ limit := by
  constructor
  · intro same content member
    -- As many are left as there were, so that none was left out.
    have counted := congrArg List.length same
    have all : (contents.map whole).length = contents.length := List.length_map _
    rw [List.length_map, ← all] at counted
    have kept := List.length_filter_eq_length_iff.mp counted.symm
    simpa using kept (whole content) (List.mem_map_of_mem member)
  · intro short
    have kept : (contents.map whole).filter (·.length ≤ limit) = contents.map whole :=
      List.filter_eq_self.mpr (by simpa using short)
    rw [kept]
    exact List.map_congr_left fun content member => fits content (short content member)

namespace HdlcDecoder

/-- What a byte of a frame adds to its content: the data so far, and whether an escape was last. -/
def unescapeStep (read : Bytes × Bool) (byte : UInt8) : Bytes × Bool :=
  if read.2 then (read.1 ++ [byte ^^^ 0x20], false)
  else if byte = 0x7d then (read.1, true)
  else (read.1 ++ [byte], false)

/-- The content of a frame, of the bytes between its flags. -/
def unescape (inner : Bytes) : Bytes × Bool := inner.foldl unescapeStep ([], false)

/-- A reader of frames that keeps all bytes between the flags as they are. -/
def readRaw (reader : Option Bytes) (byte : UInt8) : Option Bytes × Option Bytes :=
  match reader with
  | none => (none, if byte = 0x7e then some [] else none)
  | some inner =>
    -- A flag that is escaped closes nothing.
    if byte = 0x7e ∧ (unescape inner).2 = false then (some inner, none) else (none, some (inner ++ [byte]))

/-- The bytes between the flags of each complete frame of a stream. -/
def framesOf (stream : Bytes) : List Bytes := (feedAll readRaw none stream).1

/-- The contents of the complete frames of a stream that are within the limit. -/
def wholeFrames (stream : Bytes) : List Bytes :=
  ((framesOf stream).map fun inner => (unescape inner).1).filter (·.length ≤ SERIAL_HW_MTU)

/-- What the decoder adds for a byte of a frame. -/
def collectStep (read : Bytes × Bool) (byte : UInt8) : Bytes × Bool :=
  if read.2 then (read.1 ++ [byte ^^^ 0x20], false)
  else if byte = 0x7d then (read.1, true)
  else if read.1.length < SERIAL_HW_MTU then (read.1 ++ [byte], false)
  else (read.1, false)

/-- What the decoder collects of a frame. -/
def collect (inner : Bytes) : Bytes × Bool := inner.foldl collectStep ([], false)

/-- Row of bytes pushed one by one is a row fed to the decoder. -/
theorem pushAll_eq_feedAll (decoder : HdlcDecoder) (bytes : Bytes) :
    decoder.pushAll bytes = feedAll push decoder bytes := by
  -- Both fold the same decoder over the same bytes, one written as a fold and one as a recursion.
  induction bytes generalizing decoder with
  | nil => rfl
  | cons byte bytes ih =>
    rw [pushAll, ih, FeedAll.cons]

@[simp] theorem unescape_append (inner : Bytes) (byte : UInt8) :
    unescape (inner ++ [byte]) = unescapeStep (unescape inner) byte := by
  simp [unescape]

@[simp] theorem collect_append (inner : Bytes) (byte : UInt8) :
    collect (inner ++ [byte]) = collectStep (collect inner) byte := by
  simp [collect]

/-- The decoder waits for an escaped byte whenever the content does. -/
theorem collect_escape (inner : Bytes) : (collect inner).2 = (unescape inner).2 := by
  -- The induction is over the bytes from the last one on.
  induction inner using List.reverseRecOn with
  | nil => rfl
  | append_singleton inner byte ih =>
    -- Both steps treat the marker alike, and the limit only decides about data.
    rw [collect_append, unescape_append, collectStep, unescapeStep, ih]
    split
    · rfl
    · split
      · rfl
      · split <;> rfl

/-- A content only grows with its frame. -/
theorem unescapeStep_length_le (read : Bytes × Bool) (byte : UInt8) :
    read.1.length ≤ (unescapeStep read byte).1.length := by
  -- A byte either opens an escape and adds nothing, or is one more byte of payload.
  unfold unescapeStep
  split
  · simp
  · split <;> simp

/-- What is collected of a frame that is within the limit is all of its content. -/
theorem collect_eq {inner : Bytes} (fits : (unescape inner).1.length ≤ SERIAL_HW_MTU) :
    collect inner = unescape inner := by
  -- A byte that is dropped would have made the content longer than the limit.
  induction inner using List.reverseRecOn with
  | nil => rfl
  | append_singleton inner byte ih =>
    rw [unescape_append] at fits
    rw [collect_append, unescape_append, ih ((unescapeStep_length_le _ byte).trans fits)]
    unfold unescapeStep at fits ⊢
    unfold collectStep
    split
    · rfl
    · rename_i plain
      rw [if_neg plain] at fits
      split
      · rfl
      · -- A plain byte is kept, since the content with it is still within the limit.
        rename_i other
        rw [if_neg other, List.length_append, List.length_singleton] at fits
        rw [if_pos (by omega)]

/-- A decoder that has collected what a reader has read. -/
def Reads (decoder : HdlcDecoder) (reader : Option Bytes) : Prop :=
  match reader with
  | none => decoder.inFrame = false ∧ decoder.escape = false
  | some inner => decoder = ⟨true, (collect inner).2, (collect inner).1⟩

/-- A byte closes a frame for the decoder when it closes one for the reader. -/
theorem reads_step (decoder : HdlcDecoder) (reader : Option Bytes) (byte : UInt8)
    (reads : decoder.Reads reader) :
    (decoder.push byte).1.bind some = (readRaw reader byte).1.map (fun inner => (collect inner).1) ∧
      (decoder.push byte).2.Reads (readRaw reader byte).2 := by
  cases reader with
  | none =>
    obtain ⟨outside, plain⟩ := reads
    simp only [push, readRaw, outside, plain, Bool.false_eq_true, if_false, false_and]
    -- Only a flag does anything outside of a frame.
    -- Behind an escape a byte is always taken; without one a flag closes the frame.
    by_cases flag : byte = 0x7e
    · simp [flag, Reads, collect]
    · simp only [flag, if_false]
      split <;> simp [Reads, outside, plain]
  | some inner =>
    -- Inside of one the decoder holds what was collected so far.
    rw [Reads] at reads
    subst reads
    have same := collect_escape inner
    simp only [push, readRaw, ← same]
    cases escaped : (collect inner).2 with
    | true => simp [Reads, collect_append, collectStep, escaped]
    | false =>
      by_cases flag : byte = 0x7e
      · simp [flag, Reads]
      · simp only [flag, if_false, false_and, Bool.false_eq_true]
        simp only [Reads, collect_append, collectStep, escaped, Bool.false_eq_true, if_false, true_and]
        split
        · simp
        · split <;> simp

/-- The decoder gives out what it collects of every complete frame. -/
theorem pushAll_new (stream : Bytes) :
    (new.pushAll stream).1 = (framesOf stream).map fun inner => (collect inner).1 := by
  have begins : new.Reads none := ⟨rfl, rfl⟩
  rw [pushAll_eq_feedAll, framesOf, ← FeedAll.simulates reads_step begins stream, List.filterMap_some]

/-- The content of a frame is the payload it was made of. -/
theorem unescape_escape (payload : Bytes) : unescape (Hdlc.escape payload) = (payload, false) := by
  -- Behind whatever was read, each byte is read back from its escaped form.
  have general : ∀ before, (Hdlc.escape payload).foldl unescapeStep (before, false) =
      (before ++ payload, false) := by
    induction payload with
    | nil => simp [Hdlc.escape]
    | cons byte payload ih =>
      intro before
      have first : (Hdlc.encodeByte byte).foldl unescapeStep (before, false) = (before ++ [byte], false) := by
        -- Only the two special bytes are masked, and masking twice is no change.
        unfold Hdlc.encodeByte
        split
        · have masked : byte ^^^ HDLC_ESCAPE_MASK ^^^ 0x20 = byte := by
            rw [UInt8.xor_assoc]
            exact UInt8.xor_zero
          simp [unescapeStep, HDLC_ESCAPE_BYTE, masked]
        · rename_i plain
          have escape : ¬ byte = 0x7d := (not_or.mp plain).2
          simp [unescapeStep, escape]
      rw [Hdlc.escape, List.flatMap_cons, List.foldl_append, first, ← Hdlc.escape, ih]
      simp
  simpa [unescape] using general []

end HdlcDecoder

namespace Kiss

/-- The payload of an event, if it is one of data. -/
def KissEvent.payload? : KissEvent → Option Bytes
  | data payload => some payload
  | ready => none

namespace KissDecoder

/-- What a byte of a frame of data adds to its content, and whether an escape was last. -/
def unescapeStep (read : Bytes × Bool) (byte : UInt8) : Bytes × Bool :=
  if byte = FESC then (read.1, true)
  else if read.2 then (read.1 ++ [Kiss.unescape byte], false)
  else (read.1 ++ [byte], false)

/-- The content of a frame of data, of the bytes between its command and its end. -/
def contentOf (inner : Bytes) : Bytes × Bool := inner.foldl unescapeStep ([], false)

/-- Where a reader of frames stands: before a frame, at its command, in one of data, or in another. -/
inductive Reader where
  | outside
  | opened
  | inside (inner : Bytes)
  | other

/-- A reader of frames of data that keeps all bytes behind the command as they are. -/
def readRaw : Reader → UInt8 → Option Bytes × Reader
  | .inside inner, byte =>
    if byte = FEND then (some inner, .outside) else (none, .inside (inner ++ [byte]))
  | .opened, byte =>
    if byte = FEND then (none, .opened)
    else (none, if byte &&& 0x0f = CMD_DATA then .inside [] else .other)
  | reader, byte => (none, if byte = FEND then .opened else reader)

/-- The bytes of each complete frame of data in a stream. -/
def framesOf (stream : Bytes) : List Bytes := (feedAll readRaw .outside stream).1

/-- The contents of the complete frames of data that are within the limit. -/
def wholeFrames (stream : Bytes) : List Bytes :=
  ((framesOf stream).map fun inner => (contentOf inner).1).filter (·.length ≤ HW_MTU)

/-- What the decoder adds for a byte of a frame of data. -/
def collectStep (read : Bytes × Bool) (byte : UInt8) : Bytes × Bool :=
  if read.1.length ≥ HW_MTU then read else unescapeStep read byte

/-- What the decoder collects of a frame of data. -/
def collect (inner : Bytes) : Bytes × Bool := inner.foldl collectStep ([], false)

@[simp] theorem contentOf_append (inner : Bytes) (byte : UInt8) :
    contentOf (inner ++ [byte]) = unescapeStep (contentOf inner) byte := by
  simp [contentOf]

@[simp] theorem collect_append (inner : Bytes) (byte : UInt8) :
    collect (inner ++ [byte]) = collectStep (collect inner) byte := by
  simp [collect]

/-- A byte leaves the content or makes it longer. -/
theorem unescapeStep_grows (read : Bytes × Bool) (byte : UInt8) :
    (unescapeStep read byte).1 = read.1 ∨ (unescapeStep read byte).1.length = read.1.length + 1 := by
  -- The marker is the only byte that adds nothing, and only outside an open escape.
  unfold unescapeStep
  split
  · exact .inl rfl
  · split <;> simp

/-- What is collected of a frame below the limit is its content, and so are the data of one at the limit. -/
theorem collect_eq (inner : Bytes) :
    ((contentOf inner).1.length < HW_MTU → collect inner = contentOf inner) ∧
      ((contentOf inner).1.length ≤ HW_MTU → (collect inner).1 = (contentOf inner).1) := by
  -- At the limit the decoder forgets escapes, which only matters for bytes beyond it.
  induction inner using List.reverseRecOn with
  | nil => exact ⟨fun _ => rfl, fun _ => rfl⟩
  | append_singleton inner byte ih =>
    rw [collect_append, contentOf_append]
    have grows := unescapeStep_grows (contentOf inner) byte
    by_cases below : (contentOf inner).1.length < HW_MTU
    · rw [ih.1 below, collectStep, if_neg (Nat.not_le.mpr below)]
      exact ⟨fun _ => rfl, fun _ => rfl⟩
    · -- At the limit only the marker of an escape leaves the content as long as it was.
      constructor
      · intro short
        rcases grows with same | longer
        · exact absurd (same ▸ short) below
        · omega
      · intro short
        rcases grows with same | longer
        · have data := ih.2 (same ▸ short)
          rw [collectStep, if_pos (by rw [data]; exact Nat.not_lt.mp below), data, same]
        · omega

/-- A decoder that has collected what a reader has read. -/
def Reads (decoder : KissDecoder) : Reader → Prop
  | .outside => decoder.inFrame = false
  | .opened => decoder = ⟨true, false, CMD_UNKNOWN, []⟩
  | .inside inner => decoder = ⟨true, (collect inner).2, CMD_DATA, (collect inner).1⟩
  | .other => decoder.inFrame = true ∧ decoder.command ≠ CMD_DATA ∧ decoder.command ≠ CMD_UNKNOWN

/-- Inside a frame of data every byte but a frame end is collected. -/
private theorem push_inside {byte : UInt8} (ends : byte ≠ FEND) (read : Bytes × Bool) :
    push ⟨true, read.2, CMD_DATA, read.1⟩ byte =
      (none, ⟨true, (collectStep read byte).2, CMD_DATA, (collectStep read byte).1⟩) := by
  have apart : CMD_DATA ≠ CMD_UNKNOWN := by decide
  by_cases full : read.1.length ≥ HW_MTU
  · simp [push, ends, full, collectStep]
  · simp only [push, ends, full, apart, collectStep, pushData, unescapeStep, false_and, and_false, not_true,
      or_self, if_false, if_true]
    -- An escape is remembered, and forgotten with the byte behind it.
    by_cases escape : byte = FESC
    · simp [escape]
    · cases read.2 <;> simp [escape]

/-- Inside any other frame nothing is collected. -/
private theorem push_other {decoder : KissDecoder} {byte : UInt8} (ends : byte ≠ FEND)
    (told : decoder.command ≠ CMD_DATA ∧ decoder.command ≠ CMD_UNKNOWN) :
    (decoder.push byte).1.bind KissEvent.payload? = none ∧ (decoder.push byte).2 = decoder := by
  simp only [push, ends, told, and_false, if_false]
  split
  · exact ⟨rfl, rfl⟩
  · -- A node that says it is ready gives an event without a payload.
    split <;> exact ⟨rfl, rfl⟩

/-- A byte closes a frame of data for the decoder when it closes one for the reader. -/
theorem reads_step (decoder : KissDecoder) (reader : Reader) (byte : UInt8) (reads : decoder.Reads reader) :
    (decoder.push byte).1.bind KissEvent.payload? =
        (readRaw reader byte).1.map (fun inner => (collect inner).1) ∧
      (decoder.push byte).2.Reads (readRaw reader byte).2 := by
  have apart : CMD_DATA ≠ CMD_UNKNOWN ∧ CMD_UNKNOWN ≠ CMD_DATA := by decide
  -- A command is one of four bits, none of which says that it is unknown.
  have known : byte &&& 0x0f ≠ CMD_UNKNOWN :=
    forall_byte (fun byte => byte &&& 0x0f ≠ CMD_UNKNOWN) (by decide +kernel) byte
  by_cases ends : byte = FEND
  · -- A frame end closes a frame of data and opens one otherwise.
    cases reader with
    | outside => simp [push, readRaw, ends, show decoder.inFrame = false from reads, Reads]
    | opened => simp [push, readRaw, ends, show decoder = _ from reads, Reads, apart]
    | inside inner => simp [push, readRaw, ends, show decoder = _ from reads, Reads, KissEvent.payload?, new]
    | other =>
      obtain ⟨inFrame, command, -⟩ := reads
      simp [push, readRaw, ends, inFrame, command, Reads]
  · cases reader with
    | outside => simp [push, readRaw, ends, show decoder.inFrame = false from reads, Reads]
    | opened =>
      -- The byte behind a frame end is the command.
      rw [Reads] at reads
      subst reads
      have small : ¬ HW_MTU ≤ 0 := by decide
      by_cases data : byte &&& 0x0f = CMD_DATA
      · simp [push, readRaw, ends, data, Reads, collect, small]
      · simp [push, readRaw, ends, data, Reads, small, known]
    | inside inner =>
      -- Inside of a frame of data the decoder collects.
      rw [Reads] at reads
      rw [reads, push_inside ends, readRaw, if_neg ends, Reads, collect_append]
      exact ⟨rfl, rfl⟩
    | other =>
      -- Behind any other command it waits for the frame to end.
      obtain ⟨silent, same⟩ := push_other ends reads.2
      rw [silent, same, readRaw, if_neg ends]
      · exact ⟨rfl, reads⟩
      · simp
      · simp

/-- The decoder gives out what it collects of every complete frame of data. -/
theorem feedAll_new (stream : Bytes) :
    (feedAll push new stream).1.filterMap KissEvent.payload? =
      (framesOf stream).map fun inner => (collect inner).1 :=
  FeedAll.simulates reads_step (show new.Reads .outside from rfl) stream

end KissDecoder

end Kiss

/--
The decoders of a serial line give out the contents of its frames whole, and leave out those above the
limit, exactly when no complete frame of the stream is above it: any other they give out cut.
-/
theorem decoders_whole_iff (stream : Bytes) :
    ((HdlcDecoder.new.pushAll stream).1 = HdlcDecoder.wholeFrames stream ↔
      ∀ inner ∈ HdlcDecoder.framesOf stream, (HdlcDecoder.unescape inner).1.length ≤ SERIAL_HW_MTU) ∧
    ((feedAll Kiss.KissDecoder.push .new stream).1.filterMap Kiss.KissEvent.payload? =
        Kiss.KissDecoder.wholeFrames stream ↔
      ∀ inner ∈ Kiss.KissDecoder.framesOf stream,
        (Kiss.KissDecoder.contentOf inner).1.length ≤ Kiss.HW_MTU) := by
  -- Each decoder gives out what it collects, which is the content of a frame within the limit.
  rw [HdlcDecoder.pushAll_new, Kiss.KissDecoder.feedAll_new]
  exact ⟨map_cut_eq_iff fun inner fits => congrArg Prod.fst (HdlcDecoder.collect_eq fits),
    map_cut_eq_iff fun inner => (Kiss.KissDecoder.collect_eq inner).2⟩

/-- A frame of one byte too many is given out without its last byte. -/
theorem long_frame_cut :
    (¬ ∀ stream, (HdlcDecoder.new.pushAll stream).1 = HdlcDecoder.wholeFrames stream) ∧
      ¬ ∀ stream, (feedAll Kiss.KissDecoder.push .new stream).1.filterMap Kiss.KissEvent.payload? =
        Kiss.KissDecoder.wholeFrames stream := by
  constructor
  · intro whole
    -- One frame comes out of 565 bytes, where none is whole.
    have cut : (HdlcDecoder.new.pushAll (0x7e :: (List.replicate 565 1 ++ [0x7e]))).1 ≠
        HdlcDecoder.wholeFrames (0x7e :: (List.replicate 565 1 ++ [0x7e])) := by
      decide +kernel
    exact cut (whole _)
  · -- So it is with the frame of data behind its command.
    intro whole
    have cut : (feedAll Kiss.KissDecoder.push .new
        (Kiss.FEND :: Kiss.CMD_DATA :: (List.replicate 565 1 ++ [Kiss.FEND]))).1.filterMap
          Kiss.KissEvent.payload? ≠
        Kiss.KissDecoder.wholeFrames
          (Kiss.FEND :: Kiss.CMD_DATA :: (List.replicate 565 1 ++ [Kiss.FEND])) := by
      decide +kernel
    exact cut (whole _)

end Reticulum
