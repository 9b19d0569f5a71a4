import ReticulumSdk.Base.Framing
import ReticulumSdk.SerdeLaws

/-! Frames on a byte stream: between flags, with the bytes that would be mistaken escaped. -/

namespace Reticulum

/-- `HDLC_FRAME_FLAG`. -/
def HDLC_FRAME_FLAG : UInt8 := 0x7e
/-- `HDLC_ESCAPE_BYTE`. -/
def HDLC_ESCAPE_BYTE : UInt8 := 0x7d
/-- `HDLC_ESCAPE_MASK`. -/
def HDLC_ESCAPE_MASK : UInt8 := 0b00100000

namespace Hdlc

/-- What `Hdlc::encode` writes for a byte. -/
def encodeByte (byte : UInt8) : Bytes :=
  if byte = HDLC_FRAME_FLAG ∨ byte = HDLC_ESCAPE_BYTE then [HDLC_ESCAPE_BYTE, byte ^^^ HDLC_ESCAPE_MASK]
  else [byte]

/-- `Hdlc::encode`. -/
def encode (data : Bytes) (buffer : OutputBuffer) : Except RnsError OutputBuffer := do
  let buffer ← buffer.write [HDLC_FRAME_FLAG]
  let buffer ← data.foldlM (fun buffer byte => buffer.write (encodeByte byte)) buffer
  buffer.write [HDLC_FRAME_FLAG]

/-- The loop of `Hdlc::find`, at an index and with the first flag there was. -/
def findFrom : Bytes → Nat → Option Nat → Option (Nat × Nat)
  | [], _, _ => none
  | byte :: data, i, start =>
    if byte ≠ HDLC_FRAME_FLAG then findFrom data (i + 1) start
    else match start with
      | none => findFrom data (i + 1) (some i)
      | some start => some (start, i)

/-- `Hdlc::find`: where the first two flags are. -/
def find (data : Bytes) : Option (Nat × Nat) := findFrom data 0 none

/-- The loop of `Hdlc::decode`: whether a flag was seen, and whether the last byte was an escape. -/
def decodeFrom : Bytes → (started escape : Bool) → OutputBuffer → Except RnsError OutputBuffer
  | [], _, _, _ => .error .outOfMemory
  | byte :: data, started, true, output => do
    let output ← output.write [byte ^^^ HDLC_ESCAPE_MASK]
    decodeFrom data started false output
  | byte :: data, started, false, output =>
    if byte = HDLC_FRAME_FLAG then
      if started then .ok output else decodeFrom data true false output
    else if byte = HDLC_ESCAPE_BYTE then decodeFrom data started true output
    else do
      let output ← output.write [byte]
      decodeFrom data started false output

/-- `Hdlc::decode`. -/
def decode (data : Bytes) (output : OutputBuffer) : Except RnsError OutputBuffer :=
  decodeFrom data false false output

/-- A payload with its flags and escapes escaped. -/
def escape (data : Bytes) : Bytes := data.flatMap encodeByte

/-- The frame of a payload. -/
def frame (data : Bytes) : Bytes := FrameReader.enclose HDLC_FRAME_FLAG (escape data)

variable {data : Bytes} {buffer done : OutputBuffer}

/-- Escaping leaves no flag in a byte. -/
theorem flag_notMem_encodeByte (byte : UInt8) : HDLC_FRAME_FLAG ∉ encodeByte byte :=
  forall_byte (fun byte => HDLC_FRAME_FLAG ∉ encodeByte byte) (by decide +kernel) byte

/-- Escaping leaves no flag in a payload. -/
theorem flag_notMem_escape (data : Bytes) : HDLC_FRAME_FLAG ∉ escape data := by
  simp only [escape, List.mem_flatMap, not_exists, not_and]
  exact fun byte _ => flag_notMem_encodeByte byte

/-- A byte is escaped to two at most. -/
theorem encodeByte_length_le (byte : UInt8) : (encodeByte byte).length ≤ 2 := by
  unfold encodeByte
  split <;> simp

/-- A payload is never longer than its escaped form, which is at most twice as long. -/
theorem escape_length (data : Bytes) :
    data.length ≤ (escape data).length ∧ (escape data).length ≤ 2 * data.length := by
  -- Each byte becomes one or two.
  induction data with
  | nil => exact ⟨le_rfl, le_rfl⟩
  | cons byte data ih =>
    have wide := encodeByte_length_le byte
    have some : 1 ≤ (encodeByte byte).length := by
      unfold encodeByte
      split <;> simp
    simp only [escape, List.flatMap_cons, List.length_append, List.length_cons] at ih ⊢
    omega

/-- The longest a frame can be, when every byte is escaped. -/
theorem frame_length (data : Bytes) : (frame data).length = (escape data).length + 2 ∧
    (frame data).length ≤ 2 * data.length + 2 := by
  have wide := (escape_length data).2
  have width : (frame data).length = (escape data).length + 2 := by simp [frame, FrameReader.enclose]
  omega

/-- The loop of an encoding writes the escaped bytes. -/
private theorem encodeLoop_eq_ok :
    data.foldlM (fun buffer byte => OutputBuffer.write buffer (encodeByte byte)) buffer = .ok done ↔
      done.written = buffer.written ++ escape data ∧ done.room = buffer.room := by
  -- The induction is over the payload, with the buffer as the bytes before left it.
  induction data generalizing buffer with
  | nil =>
    simp only [List.foldlM_nil, pure, Except.pure, Except.ok.injEq, escape, List.flatMap_nil,
      List.append_nil]
    constructor
    · rintro rfl
      exact ⟨rfl, rfl⟩
    · rintro ⟨same, room⟩
      -- Two buffers of the same bytes and the same room are the same.
      cases buffer
      cases done
      cases same
      cases room
      rfl
  | cons byte data ih =>
    simp only [List.foldlM_cons, bind_eq_ok, OutputBuffer.write_eq_ok, ih]
    constructor
    · rintro ⟨first, ⟨wrote, room⟩, rest, kept⟩
      exact ⟨by simp [rest, wrote, escape], kept.trans room⟩
    · rintro ⟨wrote, room⟩
      -- The byte fits because all the bytes do.
      have fits := done.fits
      rw [wrote, room] at fits
      simp only [escape, List.flatMap_cons, List.length_append] at fits
      refine ⟨⟨buffer.written ++ encodeByte byte, buffer.room, ?_⟩, ⟨rfl, rfl⟩, ?_, room⟩
      · rw [List.length_append]
        omega
      · simp [wrote, escape]

/-- A frame is encoded whenever it fits, and is what is written. -/
theorem encode_eq_ok {room : Nat} : encode data (.new room) = .ok done ↔
    done.written = frame data ∧ done.room = room := by
  simp only [encode, bind_eq_ok, OutputBuffer.write_eq_ok, encodeLoop_eq_ok]
  constructor
  · rintro ⟨first, ⟨opening, kept⟩, second, ⟨inner, kept'⟩, closing, kept''⟩
    refine ⟨?_, by rw [kept'', kept', kept]; rfl⟩
    rw [closing, inner, opening]
    simp [frame, FrameReader.enclose, OutputBuffer.new]
  · rintro ⟨written, rfl⟩
    -- Every front of the frame fits where the whole frame does.
    have fits := done.fits
    rw [written, (frame_length data).1] at fits
    refine ⟨⟨[HDLC_FRAME_FLAG], done.room, by simp; omega⟩, ⟨rfl, rfl⟩,
      ⟨HDLC_FRAME_FLAG :: escape data, done.room, by simp; omega⟩, ⟨rfl, rfl⟩, ?_, rfl⟩
    simp [written, frame, FrameReader.enclose]

/-- Twice the payload and two flags are room enough. -/
theorem encode_ok {room : Nat} (fits : 2 * data.length + 2 ≤ room) :
    ∃ done, encode data (.new room) = .ok done ∧ done.written = frame data := by
  have short := (frame_length data).2
  exact ⟨⟨frame data, room, by omega⟩, encode_eq_ok.mpr ⟨rfl, rfl⟩, rfl⟩

/-- A byte is decoded from its escaped form. -/
private theorem decodeFrom_encodeByte (byte : UInt8) (rest : Bytes) :
    decodeFrom (encodeByte byte ++ rest) true false buffer =
      buffer.write [byte] >>= decodeFrom rest true false := by
  unfold encodeByte
  split
  · -- The mask is taken off again.
    have masked : byte ^^^ HDLC_ESCAPE_MASK ^^^ HDLC_ESCAPE_MASK = byte := by
      rw [UInt8.xor_assoc, UInt8.xor_self, UInt8.xor_zero]
    have escapes : HDLC_ESCAPE_BYTE ≠ HDLC_FRAME_FLAG := by decide
    simp [decodeFrom, masked, escapes]
  · rename_i plain
    rw [not_or] at plain
    simp [decodeFrom, plain.1, plain.2]

/-- The loop of a decoding writes the payload and stops at the closing flag. -/
private theorem decodeFrom_escape (data : Bytes) (buffer : OutputBuffer)
    (fits : buffer.written.length + data.length ≤ buffer.room) :
    ∃ done, decodeFrom (escape data ++ [HDLC_FRAME_FLAG]) true false buffer = .ok done ∧
      done.written = buffer.written ++ data := by
  -- The induction is over the payload, with the room that is left in the buffer.
  induction data generalizing buffer with
  | nil => exact ⟨buffer, rfl, (List.append_nil _).symm⟩
  | cons byte data ih =>
    have room : (buffer.written ++ [byte]).length ≤ buffer.room := by
      rw [List.length_append]
      simp only [List.length_cons, List.length_nil] at fits ⊢
      omega
    let after : OutputBuffer := ⟨buffer.written ++ [byte], buffer.room, room⟩
    have behind : after.written.length + data.length ≤ after.room := by
      simp only [after, List.length_append, List.length_cons, List.length_nil] at fits ⊢
      omega
    obtain ⟨done, decoded, written⟩ := ih after behind
    refine ⟨done, ?_, by rw [written, List.append_assoc]; rfl⟩
    have wrote : buffer.write [byte] = .ok after := OutputBuffer.write_eq_ok.mpr ⟨rfl, rfl⟩
    -- One byte is decoded from its escaped form, and the rest behind it.
    rw [escape, List.flatMap_cons, List.append_assoc, decodeFrom_encodeByte]
    exact bind_eq_ok.mpr ⟨after, wrote, decoded⟩

/-- The frame of a payload is decoded as that payload. -/
theorem decode_frame (data : Bytes) {room : Nat} (fits : data.length ≤ room) :
    ∃ done, decode (frame data) (.new room) = .ok done ∧ done.written = data :=
  decodeFrom_escape data (.new room) (by simpa [OutputBuffer.new] using fits)

/-- The loop of `find` skips what is no flag. -/
private theorem findFrom_append {front : Bytes} (quiet : HDLC_FRAME_FLAG ∉ front) (rest : Bytes)
    (i : Nat) (start : Option Nat) :
    findFrom (front ++ rest) i start = findFrom rest (i + front.length) start := by
  -- Byte by byte the index moves on, and the first flag stays unknown or known.
  induction front generalizing i with
  | nil => rfl
  | cons byte front ih =>
    have other : byte ≠ HDLC_FRAME_FLAG := fun same => quiet (by simp [same])
    have inside : HDLC_FRAME_FLAG ∉ front := fun inside => quiet (by simp [inside])
    simp only [List.cons_append, findFrom, ne_eq, other, not_false_eq_true, if_true, ih inside,
      List.length_cons]
    congr 1
    omega

/-- The first frame of a stream is found between its flags. -/
theorem find_frame {skipped inner : Bytes} (before : HDLC_FRAME_FLAG ∉ skipped)
    (quiet : HDLC_FRAME_FLAG ∉ inner) (rest : Bytes) :
    find (skipped ++ FrameReader.enclose HDLC_FRAME_FLAG inner ++ rest) =
      some (skipped.length, skipped.length + inner.length + 1) := by
  -- The search passes what was skipped, meets a flag, passes the payload and meets another.
  have shape : skipped ++ FrameReader.enclose HDLC_FRAME_FLAG inner ++ rest =
      skipped ++ (HDLC_FRAME_FLAG :: (inner ++ (HDLC_FRAME_FLAG :: rest))) := by
    simp [FrameReader.enclose]
  rw [shape, find, findFrom_append before]
  simp only [findFrom, ne_eq, not_true_eq_false, if_false, findFrom_append quiet]
  simp only [Option.some.injEq, Prod.mk.injEq]
  omega

/-- With one flag at most nothing is found. -/
theorem find_raw {reader : FrameReader UInt8} (plain : reader.Plain HDLC_FRAME_FLAG) :
    find (reader.raw HDLC_FRAME_FLAG) = none := by
  -- After the first flag, if there is one, none follows.
  obtain ⟨skipped, frame⟩ := reader
  have before : HDLC_FRAME_FLAG ∉ skipped := plain.1
  rw [find, FrameReader.raw]
  simp only [findFrom_append before]
  cases held : frame with
  | none => rfl
  | some frame =>
    have inside : HDLC_FRAME_FLAG ∉ frame := plain.2 frame held
    have ends := findFrom_append inside [] (0 + skipped.length + 1) (some (0 + skipped.length))
    rw [List.append_nil] at ends
    simp only [Option.elim_some, findFrom, ne_eq, not_true_eq_false, if_false, ends]

end Hdlc

end Reticulum
