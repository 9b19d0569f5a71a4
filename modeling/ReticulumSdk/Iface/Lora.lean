import Mathlib.Data.List.Chain
import ReticulumSdk.Base.Feeding
import ReticulumSdk.SerdeLaws

/-! Packets on a LoRa radio: split into two frames where one is too small, and joined again whatever is lost. -/

namespace Reticulum.Lora

/-- `LORA_HW_MTU`: what two frames carry. -/
def LORA_HW_MTU : Nat := 508

/-- `LORA_FRAME_MTU`: what one frame carries behind its header. -/
def LORA_FRAME_MTU : Nat := 254

/-- `LORA_FLAG_SPLIT`. -/
def LORA_FLAG_SPLIT : UInt8 := 0x01

/-- `chunks` of a slice, every one of the same length but the last. -/
def chunks (size : Nat) (data : Bytes) : List Bytes :=
  (List.range ((data.length + size - 1) / size)).map fun i => (data.drop (i * size)).take size

/-- `frames_for_tx`. -/
def framesForTx (data : Bytes) (sequence : UInt8) : List Bytes :=
  if data.length ≤ LORA_FRAME_MTU then [(sequence &&& 0xF0) :: data]
  else
    let header := (sequence &&& 0xF0) ||| LORA_FLAG_SPLIT
    (chunks LORA_FRAME_MTU data).map fun chunk => header :: chunk

/-- `Reassembler`. -/
structure Reassembler where
  sequence : Option UInt8
  buffer : Bytes
  deriving DecidableEq

namespace Reassembler

/-- `Reassembler::new`. -/
def new : Reassembler := ⟨none, []⟩

/-- `Reassembler::accept`: the packet that the frame completes, if it completes one. -/
def accept (reassembler : Reassembler) (frame : Bytes) : Option Bytes × Reassembler :=
  match frame with
  | [] => (none, reassembler)
  | header :: data =>
    if header &&& LORA_FLAG_SPLIT = 0 then (some data, new)
    else if reassembler.sequence = some (header &&& 0xF0) then
      -- Only two halves fit.
      if reassembler.buffer.length + data.length > LORA_HW_MTU then (none, new)
      else (some (reassembler.buffer ++ data), new)
    else (none, ⟨some (header &&& 0xF0), data⟩)

end Reassembler

/-- The sequence of a frame that is half of a packet. -/
def splitSequence : Bytes → Option UInt8
  | [] => none
  | header :: _ => if header &&& LORA_FLAG_SPLIT = 0 then none else some (header &&& 0xF0)

/-- A packet that was sent, and which of its frames arrived. -/
structure Transmission where
  data : Bytes
  sequence : UInt8
  arrived : List Bytes
  short : data.length ≤ LORA_HW_MTU
  sublist : arrived.Sublist (framesForTx data sequence)

/-- All frames of a packet arrived. -/
def Transmission.whole (transmission : Transmission) : Bool :=
  transmission.arrived = framesForTx transmission.data transmission.sequence

/-- The frames that arrived of a row of packets, each with the place of its packet in the row. -/
def delivered (start : Nat) (transmissions : List Transmission) : List (Nat × Bytes) :=
  (transmissions.zipIdx start).flatMap fun (transmission, i) => transmission.arrived.map (i, ·)

/-- Two frames are not taken for the halves of one packet unless they are. -/
def Apart (one other : Nat × Bytes) : Prop :=
  ∀ sequence, splitSequence one.2 = some sequence → splitSequence other.2 = some sequence → one.1 = other.1

variable {data : Bytes} {sequence : UInt8} {reassembler : Reassembler} {header : UInt8}

/-- A packet has one frame without the flag, or two with it, of which either fits. -/
theorem framesForTx_cases (short : data.length ≤ LORA_HW_MTU) (sequence : UInt8) :
    (∃ header, framesForTx data sequence = [header :: data] ∧ header &&& LORA_FLAG_SPLIT = 0 ∧
        data.length ≤ LORA_FRAME_MTU) ∨
      ∃ header first second, framesForTx data sequence = [header :: first, header :: second] ∧
        header &&& LORA_FLAG_SPLIT ≠ 0 ∧ first ++ second = data ∧
        first.length ≤ LORA_FRAME_MTU ∧ second.length ≤ LORA_FRAME_MTU := by
  unfold framesForTx
  by_cases single : data.length ≤ LORA_FRAME_MTU
  · rw [if_pos single]
    -- One frame holds it, with the flag cleared.
    exact .inl ⟨_, rfl, forall_byte (fun sequence => (sequence &&& 0xF0) &&& LORA_FLAG_SPLIT = 0)
      (by decide +kernel) sequence, single⟩
  · rw [if_neg single]
    unfold LORA_FRAME_MTU LORA_HW_MTU at *
    -- What is too long for one frame and short enough for two makes two chunks.
    have count : (data.length + 254 - 1) / 254 = 2 := by omega
    have cut : chunks 254 data = [data.take 254, data.drop 254] := by
      have rest : (data.drop 254).take 254 = data.drop 254 :=
        List.take_of_length_le (by rw [List.length_drop]; omega)
      rw [chunks, count]
      simp [List.range_succ, rest]
    rw [cut]
    exact .inr ⟨_, _, _, rfl, forall_byte
      (fun sequence => ((sequence &&& 0xF0) ||| LORA_FLAG_SPLIT) &&& LORA_FLAG_SPLIT ≠ 0)
      (by decide +kernel) sequence, List.take_append_drop _ _, List.length_take_le _ _,
      by rw [List.length_drop]; omega⟩

namespace Reassembler

/-- A frame without the flag is a packet, whatever was waited for. -/
theorem accept_single (single : header &&& LORA_FLAG_SPLIT = 0) (data : Bytes) :
    reassembler.accept (header :: data) = (some data, new) := if_pos single

/-- A half that does not belong to what was waited for takes its place. -/
theorem accept_first (split : header &&& LORA_FLAG_SPLIT ≠ 0)
    (other : reassembler.sequence ≠ splitSequence (header :: data)) :
    reassembler.accept (header :: data) = (none, ⟨splitSequence (header :: data), data⟩) := by
  rw [splitSequence, if_neg split] at other ⊢
  rw [accept, if_neg split, if_neg other]

/-- The half that was waited for completes the packet. -/
theorem accept_second (split : header &&& LORA_FLAG_SPLIT ≠ 0) {first second : Bytes}
    (fits : first.length + second.length ≤ LORA_HW_MTU) :
    accept ⟨splitSequence (header :: first), first⟩ (header :: second) =
      (some (first ++ second), new) := by
  rw [splitSequence, if_neg split, accept, if_neg split, if_pos rfl, if_neg (Nat.not_lt.mpr fits)]

/-- What waits is the last frame that came. -/
def Follows (reassembler : Reassembler) (last : Option (Nat × Bytes)) : Prop :=
  ∀ sequence, reassembler.sequence = some sequence →
    ∃ frame ∈ last, splitSequence frame.2 = some sequence

/-- A half of a later packet is not what was waited for. -/
theorem Follows.other {last : Option (Nat × Bytes)} (follows : reassembler.Follows last) {place : Nat}
    (earlier : ∀ frame ∈ last, frame.1 < place) (split : header &&& LORA_FLAG_SPLIT ≠ 0)
    (apart : ∀ frame ∈ last, Apart frame (place, header :: data)) :
    reassembler.sequence ≠ splitSequence (header :: data) := by
  -- A frame that the reassembler awaits has the sequence of the last one, and only its second half has.
  intro same
  have named : splitSequence (header :: data) = some (header &&& 0xF0) := if_neg split
  obtain ⟨frame, member, sequence⟩ := follows _ (same.trans named)
  have equal := apart frame member _ sequence named
  have before := earlier frame member
  omega

end Reassembler

/-- The frames of the first packet come before those of the others. -/
theorem delivered_cons (place : Nat) (transmission : Transmission) (transmissions : List Transmission) :
    delivered place (transmission :: transmissions) =
      transmission.arrived.map (place, ·) ++ delivered (place + 1) transmissions := by
  simp [delivered]

/-- What follows a last frame, if there is one, is in a row with it. -/
private theorem apart_cons {last : Option (Nat × Bytes)} {first : Nat × Bytes}
    {rest : List (Nat × Bytes)} (apart : (last.toList ++ first :: rest).IsChain Apart) :
    (∀ frame ∈ last, Apart frame first) ∧ ((some first).toList ++ rest).IsChain Apart := by
  -- A chain is apart at its first step and from there on.
  cases last with
  | none => exact ⟨fun _ member => (nomatch member), apart⟩
  | some frame =>
    obtain ⟨here, behind⟩ := List.isChain_cons_cons.mp apart
    exact ⟨fun _ member => (Option.mem_some.mp member) ▸ here, behind⟩

namespace Reassembler

/-- A reassembler that waits for nothing follows any frame. -/
theorem follows_new (last : Option (Nat × Bytes)) : new.Follows last := fun _ waits => nomatch waits

/--
What arrived of one transmission gives its packet if all of it did, and leaves the reassembler
following the last frame that came.
-/
theorem feed_arrived (transmission : Transmission) {place : Nat} {last : Option (Nat × Bytes)}
    {later : List (Nat × Bytes)} (follows : reassembler.Follows last)
    (earlier : ∀ frame ∈ last, frame.1 < place)
    (apart : (last.toList ++ (transmission.arrived.map (place, ·) ++ later)).IsChain Apart) :
    (feedAll accept reassembler transmission.arrived).1 =
        (if transmission.whole then [transmission.data] else []) ∧
      ∃ last', (feedAll accept reassembler transmission.arrived).2.Follows last' ∧
        (∀ frame ∈ last', frame.1 < place + 1) ∧ (last'.toList ++ later).IsChain Apart := by
  -- Of one or two frames any may be missing, and those that arrived are in order.
  have here : ∀ frame : Bytes, ∀ tagged ∈ some (place, frame), tagged.1 < place + 1 :=
    fun frame tagged member => (Option.mem_some.mp member) ▸ Nat.lt_succ_self place
  obtain ⟨data, sequence, arrived, short, sublist⟩ := transmission
  unfold Transmission.whole
  dsimp only at apart ⊢
  rcases framesForTx_cases short sequence with
    ⟨header, frames, single, -⟩ | ⟨header, first, second, frames, split, joined, -, -⟩
  · rw [frames] at sublist ⊢
    rcases List.sublist_singleton.mp sublist with rfl | rfl
    · -- Where no frame arrived, everything is as before.
      exact ⟨by simp, last, follows, fun frame member => Nat.lt_succ_of_lt (earlier frame member), apart⟩
    · -- A packet in one frame is given at once.
      obtain ⟨-, behind⟩ := apart_cons apart
      rw [FeedAll.cons, accept_single single]
      exact ⟨by simp, _, follows_new _, here _, behind⟩
  · rw [frames] at sublist ⊢
    have waits : ∀ half, Follows ⟨splitSequence (header :: half), half⟩ (some (place, header :: half)) :=
      fun half sequence same => ⟨_, rfl, same⟩
    rcases List.sublist_cons_iff.mp sublist with late | ⟨tail, rfl, late⟩
    · rcases List.sublist_singleton.mp late with rfl | rfl
      · exact ⟨by simp, last, follows, fun frame member => Nat.lt_succ_of_lt (earlier frame member), apart⟩
      · -- A half alone waits for the other in vain, and takes the place of what was waited for.
        obtain ⟨clear, behind⟩ := apart_cons apart
        rw [FeedAll.cons, accept_first split (follows.other earlier split clear), if_neg (by simp)]
        exact ⟨rfl, _, waits _, here _, behind⟩
    · rcases List.sublist_singleton.mp late with rfl | rfl
      · obtain ⟨clear, behind⟩ := apart_cons apart
        rw [FeedAll.cons, accept_first split (follows.other earlier split clear), if_neg (by simp)]
        exact ⟨rfl, _, waits _, here _, behind⟩
      · -- The second half finds the first one waiting for it.
        obtain ⟨clear, next⟩ := apart_cons apart
        obtain ⟨-, behind⟩ := apart_cons next
        have room : first.length + second.length ≤ LORA_HW_MTU := by
          rw [← List.length_append, joined]
          exact short
        rw [FeedAll.cons, accept_first split (follows.other earlier split clear), FeedAll.cons,
          accept_second split room]
        exact ⟨by simp [joined], _, follows_new _, here _, behind⟩

/-- Frames that are apart give the packets of which all arrived, in order. -/
theorem feed_delivered (transmissions : List Transmission) {place : Nat}
    {last : Option (Nat × Bytes)} (follows : reassembler.Follows last)
    (earlier : ∀ frame ∈ last, frame.1 < place)
    (apart : (last.toList ++ delivered place transmissions).IsChain Apart) :
    (feedAll accept reassembler ((delivered place transmissions).map Prod.snd)).1 =
      (transmissions.filter Transmission.whole).map Transmission.data := by
  -- Packet by packet, with the reassembler as the last frame that came left it.
  induction transmissions generalizing reassembler place last with
  | nil => rfl
  | cons transmission transmissions ih =>
    rw [delivered_cons] at apart
    obtain ⟨given, last', after, before, behind⟩ := feed_arrived transmission follows earlier apart
    have tagged : (transmission.arrived.map (place, ·)).map Prod.snd = transmission.arrived := by
      rw [List.map_map]
      exact List.map_id _
    rw [delivered_cons, List.map_append, tagged, FeedAll.append, given, ih after before behind,
      List.filter_cons]
    split <;> simp

end Reassembler

/--
Whatever is lost of a row of packets on the air, as long as no two halves that come one behind the other
under the same sequence are of different packets, the packets of which all frames arrived come out, in
order and unchanged. Every packet has one frame or two, none longer than a frame can be.
-/
theorem split_inverted_under_loss {transmissions : List Transmission}
    (apart : (delivered 0 transmissions).IsChain Apart) :
    (feedAll Reassembler.accept .new ((delivered 0 transmissions).map Prod.snd)).1 =
        (transmissions.filter Transmission.whole).map Transmission.data ∧
      ∀ data sequence, data.length ≤ LORA_HW_MTU →
        ((framesForTx data sequence).length = 1 ∨ (framesForTx data sequence).length = 2) ∧
          ∀ frame ∈ framesForTx data sequence, frame.length ≤ LORA_FRAME_MTU + 1 := by
  -- A new reassembler has received nothing that a frame could be confused with.
  refine ⟨Reassembler.feed_delivered transmissions (Reassembler.follows_new none)
    (fun _ member => nomatch member) apart, fun data sequence short => ?_⟩
  -- A payload goes out whole or in two halves.
  rcases framesForTx_cases short sequence with
    ⟨header, frames, -, fits⟩ | ⟨header, first, second, frames, -, -, fits, fits'⟩
  · rw [frames]
    exact ⟨.inl rfl, by simpa using fits⟩
  · rw [frames]
    exact ⟨.inr rfl, by simpa using ⟨fits, fits'⟩⟩

/-- A packet of two frames, of which the second is lost, and one of one frame under the same sequence. -/
private def lossy : List Transmission :=
  [⟨List.replicate 300 7, 0x51, (framesForTx (List.replicate 300 7) 0x51).take 1,
      by rw [List.length_replicate]; decide, List.take_sublist _ _⟩,
    ⟨[1, 2], 0x51, [[0x50, 1, 2]], by decide, List.Sublist.refl _⟩]

/-- Only the whole one comes out. -/
theorem split_inverted_lossy :
    (feedAll Reassembler.accept .new ((delivered 0 lossy).map Prod.snd)).1 =
      (lossy.filter Transmission.whole).map Transmission.data := by
  have frames : delivered 0 lossy =
      [(0, 0x51 :: List.replicate 254 7), (1, [0x50, 1, 2])] := by decide +kernel
  -- The frame of the second packet has no flag.
  have apart : (delivered 0 lossy).IsChain Apart := by
    rw [frames]
    exact List.isChain_pair.mpr fun sequence _ same => nomatch same
  exact (split_inverted_under_loss apart).1

end Reticulum.Lora
