import ReticulumSdk.Iface.TcpClient

/-! The receive loop as a reader of frames: what it delivers does not depend on how the stream is cut. -/

namespace Reticulum

namespace StreamBuffers

variable {buffers : StreamBuffers} {hwMtu : Nat}

/-- Buffers that could be allocated have the sizes that were meant. -/
theorem of_allocate (started : allocate hwMtu = .ok buffers) :
    buffers.txCapacity = hwMtu + 35 ∧ buffers.hdlcCapacity = 2 * (hwMtu + 35) + 2 ∧
      buffers.rxCapacity = 2 * hwMtu + 2 := by
  simp only [allocate, txFrameBufferSizes, rxFrameCapacity, saturatingAdd, saturatingMul, bind_eq_ok,
    pure, Except.pure, Except.ok.injEq, HDLC_FLAG_OVERHEAD, MAX_PACKET_FRAME_RESERVE,
    RETICULUM_MAX_HEADER_SIZE] at started
  obtain ⟨rxDone, rx, hdlcDone, hdlc, txDone, tx, rfl⟩ := started
  -- A saturated size would be larger than any allocation.
  have rx := lt_of_allocate rx
  have hdlc := lt_of_allocate hdlc
  have range : isizeRange + isizeRange = usizeRange := rfl
  have wide : 0 < isizeRange := by decide
  refine ⟨?_, ?_, ?_⟩ <;> simp only [] <;> omega

end StreamBuffers

namespace TcpReceiver

variable {hkdf : HkdfSha256} {ifacConfig : Option IfacConfig} {rxCapacity : Nat}
  {receiver : TcpReceiver} {reader : FrameReader UInt8}

open FrameReader

/-- What the loop delivers for the frames of a buffer. -/
def delivered (hkdf : HkdfSha256) (ifacConfig : Option IfacConfig) (inner : List Bytes) : List Packet :=
  inner.filterMap fun inner => acceptFrame hkdf ifacConfig (enclose HDLC_FRAME_FLAG inner)

/-- The inner loop takes out what a reader of the buffer takes out, and leaves what it holds back. -/
theorem frames_eq (hkdf : HkdfSha256) (ifacConfig : Option IfacConfig) (frameBuffer : Bytes)
    (rounds consumed : Nat)
    (enough : (frameBuffer.drop consumed).length ≤ rounds) :
    let read := (empty : FrameReader UInt8).feed HDLC_FRAME_FLAG (frameBuffer.drop consumed)
    let done := frames hkdf ifacConfig frameBuffer rounds consumed
    done.1 = delivered hkdf ifacConfig read.1 ∧
      frameBuffer.drop done.2 = read.2.raw HDLC_FRAME_FLAG := by
  -- One round for each frame, as long as the buffer has two flags behind what was consumed.
  induction rounds generalizing consumed with
  | zero =>
    have none := List.eq_nil_of_length_eq_zero (Nat.le_zero.mp enough)
    simp only [none, frames]
    exact ⟨rfl, rfl⟩
  | succ rounds ih =>
    rcases split_stream HDLC_FRAME_FLAG (frameBuffer.drop consumed) with
      ⟨reader, plain, held⟩ | ⟨skipped, inner, rest, before, quiet, ahead⟩
    · -- Without a frame the loop ends.
      simp only [frames, held, Hdlc.find_raw plain, plain.feed_raw]
      exact ⟨rfl, trivial⟩
    · have found := Hdlc.find_frame before quiet rest
      -- The frame is cut out of the buffer from its first flag to its last.
      have cut : (frameBuffer.take (consumed + (skipped.length + inner.length + 1) + 1)).drop
          (consumed + skipped.length) = enclose HDLC_FRAME_FLAG inner := by
        have width : (enclose HDLC_FRAME_FLAG inner).length = inner.length + 2 := by simp [enclose]
        rw [List.drop_take, ← List.drop_drop, ahead, List.append_assoc, List.drop_left]
        exact List.take_left' (by omega)
      have behind : frameBuffer.drop (consumed + (skipped.length + inner.length + 1) + 1) = rest := by
        have width : (skipped ++ enclose HDLC_FRAME_FLAG inner).length =
            skipped.length + inner.length + 1 + 1 := by simp [enclose]; omega
        rw [Nat.add_assoc, ← List.drop_drop, ahead]
        exact List.drop_left' width
      have length := congrArg List.length ahead
      simp only [List.length_append, List.length_drop, enclose, List.length_cons] at length enough
      have later := ih (consumed + (skipped.length + inner.length + 1) + 1)
        (by rw [behind]; omega)
      rw [behind] at later
      -- What was skipped in front of a frame is not held back any more.
      have taken : (empty : FrameReader UInt8).feed HDLC_FRAME_FLAG (frameBuffer.drop consumed) =
          (inner :: ((empty : FrameReader UInt8).feed HDLC_FRAME_FLAG rest).1,
            ((empty : FrameReader UInt8).feed HDLC_FRAME_FLAG rest).2) := by
        have front : (⟨skipped, none⟩ : FrameReader UInt8).feed HDLC_FRAME_FLAG
            (enclose HDLC_FRAME_FLAG inner) = ([inner], empty) := feed_enclose quiet
        rw [ahead, List.append_assoc, feed_append, feed_of_not_mem before]
        simp only [empty, List.nil_append] at front ⊢
        rw [feed_append, front]
        rfl
      simp only [frames, taken]
      rw [ahead, found]
      simp only [cut]
      refine ⟨?_, later.2⟩
      rw [later.1, delivered, delivered, List.filterMap_cons]
      cases acceptFrame hkdf ifacConfig (enclose HDLC_FRAME_FLAG inner) <;> rfl

/-- A read hands the bytes to the reader of frames, unless that holds back too much afterwards. -/
theorem receive_eq (hkdf : HkdfSha256) (ifacConfig : Option IfacConfig) (rxCapacity : Nat)
    (plain : reader.Plain HDLC_FRAME_FLAG) (held : receiver.frameBuffer = reader.raw HDLC_FRAME_FLAG) (read : Bytes) :
    let taken := reader.feed HDLC_FRAME_FLAG read
    let kept := taken.2.raw HDLC_FRAME_FLAG
    let rxChannel := receiver.rxChannel ++ delivered hkdf ifacConfig taken.1
    receiver.receive hkdf ifacConfig rxCapacity read =
      if kept.length > rxCapacity then ⟨[], rxChannel, receiver.oversized ++ [kept]⟩
      else { receiver with frameBuffer := kept, rxChannel := rxChannel } := by
  obtain ⟨packets, left⟩ := frames_eq hkdf ifacConfig
    (receiver.frameBuffer ++ read) (receiver.frameBuffer ++ read).length 0 le_rfl
  rw [List.drop_zero, held, plain.feed_raw_append] at packets left
  simp only [receive, held, packets, left]

/-- Reads that never leave too much are one read. -/
theorem receiveAll_eq (hkdf : HkdfSha256) (ifacConfig : Option IfacConfig)
    (plain : reader.Plain HDLC_FRAME_FLAG) (held : receiver.frameBuffer = reader.raw HDLC_FRAME_FLAG) (reads : List TcpRead)
    (within : ∀ front back, reads = front ++ back →
      ((reader.feed HDLC_FRAME_FLAG (front.flatMap TcpRead.bytes)).2.raw HDLC_FRAME_FLAG).length ≤
        rxCapacity) :
    let taken := reader.feed HDLC_FRAME_FLAG (reads.flatMap TcpRead.bytes)
    receiver.receiveAll hkdf ifacConfig rxCapacity reads =
      { receiver with
        frameBuffer := taken.2.raw HDLC_FRAME_FLAG
        rxChannel := receiver.rxChannel ++ delivered hkdf ifacConfig taken.1 } := by
  induction reads generalizing receiver reader with
  | nil => simp [receiveAll, FrameReader.feed, delivered, ← held]
  | cons read reads ih =>
    -- The first read keeps what it leaves, and the others go on from there.
    have small := within [read] reads rfl
    simp only [List.flatMap_cons, List.flatMap_nil, List.append_nil] at small
    have first := receive_eq hkdf ifacConfig rxCapacity plain held read.bytes
    simp only [if_neg (Nat.not_lt.mpr small)] at first
    have kept : (receiver.receive hkdf ifacConfig rxCapacity read.bytes).frameBuffer =
        (reader.feed HDLC_FRAME_FLAG read.bytes).2.raw HDLC_FRAME_FLAG := by rw [first]
    have rest := ih (plain.feed read.bytes) kept (fun front back split => by
      have whole := within (read :: front) back (by rw [split]; rfl)
      rw [List.flatMap_cons, feed_append] at whole
      exact whole)
    simp only [receiveAll, List.foldl_cons, List.flatMap_cons, feed_append] at rest ⊢
    rw [rest, first]
    simp [delivered, List.filterMap_append]

/-- A payload in its frame is delivered as the payload is. -/
theorem acceptFrame_frame (data : Bytes) :
    acceptFrame hkdf ifacConfig (Hdlc.frame data) = accept hkdf ifacConfig data := by
  -- There is room for the payload, for a frame is longer than what it carries.
  have width := (Hdlc.frame_length data).1
  have long := (Hdlc.escape_length data).1
  obtain ⟨output, decoded, written⟩ := Hdlc.decode_frame data
    (show data.length ≤ (Hdlc.frame data).length by omega)
  simp only [acceptFrame, decoded, written]

/-- What the loop delivers for frames is what it delivers for their payloads. -/
theorem delivered_escape (payloads : List Bytes) :
    delivered hkdf ifacConfig (payloads.map Hdlc.escape) =
      payloads.filterMap (accept hkdf ifacConfig) := by
  rw [delivered, List.filterMap_map]
  congr 1
  funext data
  exact acceptFrame_frame data

/--
A receive task that has seen no flag since the last frame delivers all the frames that come, unless
the first of them does not fit behind what it holds back.
-/
theorem receiveAll_frames (hkdf : HkdfSha256) (ifacConfig : Option IfacConfig)
    (quiet : HDLC_FRAME_FLAG ∉ receiver.frameBuffer)
    (small : receiver.frameBuffer.length ≤ rxCapacity) {payloads : List Bytes}
    (fits : ∀ data ∈ payloads, (Hdlc.frame data).length ≤ rxCapacity) {reads : List TcpRead}
    (cut : reads.flatMap TcpRead.bytes = payloads.flatMap Hdlc.frame)
    (first : ∀ data ∈ payloads.head?, ∀ front back, reads = front ++ back →
      (front.flatMap TcpRead.bytes).length < (Hdlc.frame data).length →
        receiver.frameBuffer.length + (front.flatMap TcpRead.bytes).length ≤ rxCapacity) :
    let done := receiver.receiveAll hkdf ifacConfig rxCapacity reads
    done.rxChannel = receiver.rxChannel ++ payloads.filterMap (accept hkdf ifacConfig) ∧
      done.oversized = receiver.oversized := by
  -- As a reader of frames the task only skipped so far.
  let reader : FrameReader UInt8 := ⟨receiver.frameBuffer, none⟩
  have plain : reader.Plain HDLC_FRAME_FLAG := ⟨quiet, by simp [reader]⟩
  have held : receiver.frameBuffer = reader.raw HDLC_FRAME_FLAG := by simp [reader, raw]
  have enclosed : payloads.flatMap Hdlc.frame =
      (payloads.map Hdlc.escape).flatMap (enclose HDLC_FRAME_FLAG) := by
    rw [List.flatMap_map]
    rfl
  have escaped : ∀ payload ∈ payloads.map Hdlc.escape, HDLC_FRAME_FLAG ∉ payload := by
    simp only [List.mem_map, forall_exists_index, and_imp, forall_apply_eq_imp_iff₂]
    exact fun data _ => Hdlc.flag_notMem_escape data
  -- At every cut of the stream the bytes held fit the buffer.
  have within : ∀ front back, reads = front ++ back →
      ((reader.feed HDLC_FRAME_FLAG (front.flatMap TcpRead.bytes)).2.raw HDLC_FRAME_FLAG).length ≤
        rxCapacity := by
    intro front back split
    have stream : (payloads.map Hdlc.escape).flatMap (enclose HDLC_FRAME_FLAG) =
        front.flatMap TcpRead.bytes ++ back.flatMap TcpRead.bytes := by
      rw [← enclosed, ← cut, split, List.flatMap_append]
    refine raw_feed_frames_le escaped ?_ stream small ?_
    · simp only [List.mem_map, forall_exists_index, and_imp, forall_apply_eq_imp_iff₂]
      exact fits
    · intro payload leading
      rw [List.head?_map, Option.mem_map] at leading
      obtain ⟨data, leading, rfl⟩ := leading
      exact first data leading front back split
  have whole := receiveAll_eq hkdf ifacConfig plain held reads within
  simp only [cut, enclosed, reader, feed_frames escaped, delivered_escape] at whole
  simp only [whole, and_self]

end TcpReceiver

end Reticulum
