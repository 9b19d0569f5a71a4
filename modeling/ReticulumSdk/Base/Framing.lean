import Mathlib.Data.List.Basic

/-! Frames between flags in a stream, and a reader that is fed the stream in pieces. -/

namespace Reticulum

/-- What a reader holds back: what it skipped, and what came behind an opening flag. -/
structure FrameReader (α : Type) where
  skipped : List α
  frame : Option (List α)
  deriving DecidableEq

namespace FrameReader

variable {α : Type} [DecidableEq α] {flag : α} {reader : FrameReader α}

/-- A reader that holds nothing back. -/
def empty : FrameReader α := ⟨[], none⟩

/-- One item: every other flag closes the frame that the flag before it opened. -/
def push (flag : α) (reader : FrameReader α) (item : α) : List (List α) × FrameReader α :=
  match reader.frame with
  | none => if item = flag then ([], ⟨reader.skipped, some []⟩) else ([], ⟨reader.skipped ++ [item], none⟩)
  | some frame => if item = flag then ([frame], empty) else ([], ⟨reader.skipped, some (frame ++ [item])⟩)

/-- A piece of the stream: the frames that end in it, and what is held back. -/
def feed (flag : α) : FrameReader α → List α → List (List α) × FrameReader α
  | reader, [] => ([], reader)
  | reader, item :: stream =>
    let first := reader.push flag item
    let rest := feed flag first.2 stream
    (first.1 ++ rest.1, rest.2)

/-- What is held back, as it came. -/
def raw (flag : α) (reader : FrameReader α) : List α :=
  reader.skipped ++ reader.frame.elim [] (flag :: ·)

/-- What is held back has no flag but the one that opened a frame. -/
def Plain (flag : α) (reader : FrameReader α) : Prop :=
  flag ∉ reader.skipped ∧ ∀ frame ∈ reader.frame, flag ∉ frame

omit [DecidableEq α] in
/-- An empty reader holds nothing back. -/
theorem plain_empty : (empty : FrameReader α).Plain flag := ⟨by simp [empty], by simp [empty]⟩

/-- Feeding two pieces is feeding them together. -/
theorem feed_append (front back : List α) : reader.feed flag (front ++ back) =
    ((reader.feed flag front).1 ++ ((reader.feed flag front).2.feed flag back).1,
      ((reader.feed flag front).2.feed flag back).2) := by
  induction front generalizing reader with
  | nil => rfl
  | cons item front ih => simp [feed, ih]

/-- An item keeps what is held back free of flags. -/
theorem Plain.push (plain : reader.Plain flag) (item : α) : (reader.push flag item).2.Plain flag := by
  -- A flag opens a frame or closes one, and another item is skipped or collected.
  obtain ⟨skipped, frame⟩ := reader
  unfold FrameReader.push
  cases frame with
  | none =>
    by_cases same : item = flag
    · simpa [same, Plain] using plain.1
    · have : flag ≠ item := fun other => same other.symm
      simpa [same, this, Plain] using plain.1
  | some frame =>
    by_cases same : item = flag
    · simpa [same] using plain_empty
    · have : flag ≠ item := fun other => same other.symm
      simpa [same, this, Plain] using plain

/-- So does a piece of the stream. -/
theorem Plain.feed (plain : reader.Plain flag) (stream : List α) :
    (reader.feed flag stream).2.Plain flag := by
  induction stream generalizing reader with
  | nil => exact plain
  | cons item stream ih => exact ih (plain.push item)

/-- What has no flag extends what is held back. -/
theorem feed_of_not_mem {stream : List α} (quiet : flag ∉ stream) : reader.feed flag stream =
    ([], match reader.frame with
      | none => ⟨reader.skipped ++ stream, none⟩
      | some frame => ⟨reader.skipped, some (frame ++ stream)⟩) := by
  -- Item by item, what is no flag goes where the reader puts it.
  induction stream generalizing reader with
  | nil =>
    obtain ⟨skipped, frame⟩ := reader
    cases frame <;> simp [FrameReader.feed]
  | cons item stream ih =>
    have other : item ≠ flag := fun same => quiet (by simp [same])
    have rest : flag ∉ stream := fun inside => quiet (by simp [inside])
    obtain ⟨skipped, frame⟩ := reader
    cases frame <;> simp [FrameReader.feed, FrameReader.push, other, ih rest]

/-- A frame as it is sent: between two flags. -/
def enclose (flag : α) (payload : List α) : List α := flag :: (payload ++ [flag])

/-- A reader that is not inside a frame takes a whole frame out. -/
theorem feed_enclose {skipped payload : List α} (quiet : flag ∉ payload) :
    (⟨skipped, none⟩ : FrameReader α).feed flag (enclose flag payload) = ([payload], empty) := by
  simp [enclose, FrameReader.feed, FrameReader.push, feed_append, feed_of_not_mem quiet]

/-- A reader that is not inside a frame takes frames out in the order they came. -/
theorem feed_frames {payloads : List (List α)} (quiet : ∀ payload ∈ payloads, flag ∉ payload)
    (skipped : List α) : (⟨skipped, none⟩ : FrameReader α).feed flag (payloads.flatMap (enclose flag)) =
      (payloads, if payloads = [] then ⟨skipped, none⟩ else empty) := by
  -- After the first frame nothing is skipped, and so for the rest.
  induction payloads generalizing skipped with
  | nil => rfl
  | cons payload payloads ih =>
    have rest := ih (fun payload inside => quiet payload (List.mem_cons_of_mem _ inside)) []
    simp only [List.flatMap_cons, feed_append, feed_enclose (quiet payload List.mem_cons_self)]
    rw [empty, rest]
    -- Only where no frame came the skipped items stay as they were.
    by_cases last : payloads = [] <;> simp [last, empty]

/-- What is held back is fed again without any frame, and is held back as it was. -/
theorem Plain.feed_raw (plain : reader.Plain flag) :
    (empty : FrameReader α).feed flag (reader.raw flag) = ([], reader) := by
  -- What was skipped is skipped again, and an open frame is opened and filled again.
  obtain ⟨skipped, frame⟩ := reader
  cases frame with
  | none => simp [raw, empty, feed_of_not_mem plain.1]
  | some frame =>
    have inside : flag ∉ frame := plain.2 frame rfl
    simp [raw, empty, feed_append, feed_of_not_mem plain.1, FrameReader.feed, FrameReader.push,
      feed_of_not_mem inside]

/-- A reader goes on where it stopped, whether it keeps its state or reads what it held back again. -/
theorem Plain.feed_raw_append (plain : reader.Plain flag) (stream : List α) :
    (empty : FrameReader α).feed flag (reader.raw flag ++ stream) = reader.feed flag stream := by
  rw [feed_append, plain.feed_raw, List.nil_append]

/-- A stream has two flags, or it is what a reader may hold back. -/
theorem split_stream (flag : α) (stream : List α) :
    (∃ reader : FrameReader α, reader.Plain flag ∧ stream = reader.raw flag) ∨
      ∃ skipped inner rest, flag ∉ skipped ∧ flag ∉ inner ∧
        stream = skipped ++ enclose flag inner ++ rest := by
  -- The stream is cut at its first flag, and what follows at the next one.
  by_cases opened : flag ∈ stream
  · obtain ⟨skipped, rest, rfl, before⟩ := List.eq_append_cons_of_mem opened
    by_cases closed : flag ∈ rest
    · obtain ⟨inner, rest, rfl, quiet⟩ := List.eq_append_cons_of_mem closed
      exact .inr ⟨skipped, inner, rest, before, quiet, by simp [enclose]⟩
    · exact .inl ⟨⟨skipped, some rest⟩, ⟨before, fun _ held => by cases held; exact closed⟩, rfl⟩
  · exact .inl ⟨⟨stream, none⟩, ⟨opened, fun _ held => by cases held⟩, by simp [raw]⟩

/-- A piece inside a first frame is held back behind what was skipped. -/
theorem raw_feed_inside {skipped front back payload : List α} (quiet : flag ∉ payload)
    (split : enclose flag payload = front ++ back) (short : back ≠ []) :
    ((⟨skipped, none⟩ : FrameReader α).feed flag front).2.raw flag = skipped ++ front := by
  cases front with
  | nil => simp [FrameReader.feed, raw]
  | cons item front =>
    obtain ⟨rfl, inner⟩ := List.cons.inj split
    -- The closing flag is behind the piece, so that there is only the opening one in it.
    obtain ⟨last, rfl⟩ : ∃ last, back = last ++ [flag] := by
      obtain ⟨last, final, rfl⟩ := List.eq_nil_or_concat' back |>.resolve_left short
      have ends : payload ++ [flag] = front ++ last ++ [final] := by rw [inner, List.append_assoc]; rfl
      obtain ⟨-, same⟩ := List.append_inj' ends rfl
      exact ⟨last, by rw [same]⟩
    have ends : payload ++ [flag] = front ++ last ++ [flag] := by rw [inner, List.append_assoc]; rfl
    have whole := List.append_cancel_right ends
    have free : flag ∉ front := fun inside => quiet (by rw [whole]; simp [inside])
    simp [FrameReader.feed, FrameReader.push, feed_of_not_mem free, raw]

/--
While frames arrive back to back, what is held back stays within a bound on all of them, if it does
while the first one arrives behind what was skipped.
-/
theorem raw_feed_frames_le {bound : Nat} {payloads : List (List α)} {skipped front back : List α}
    (quiet : ∀ payload ∈ payloads, flag ∉ payload)
    (short : ∀ payload ∈ payloads, (enclose flag payload).length ≤ bound)
    (split : payloads.flatMap (enclose flag) = front ++ back) (start : skipped.length ≤ bound)
    (first : ∀ payload ∈ payloads.head?, front.length < (enclose flag payload).length →
      skipped.length + front.length ≤ bound) :
    (((⟨skipped, none⟩ : FrameReader α).feed flag front).2.raw flag).length ≤ bound := by
  -- Frame by frame: the piece ends inside the first frame, or goes on behind it.
  induction payloads generalizing skipped front with
  | nil =>
    obtain ⟨rfl, -⟩ := List.append_eq_nil_iff.mp split.symm
    simpa [FrameReader.feed, raw] using start
  | cons payload payloads ih =>
    have here := quiet payload List.mem_cons_self
    rw [List.flatMap_cons] at split
    rcases List.append_eq_append_iff.mp split with ⟨later, rfl, rest⟩ | ⟨missing, whole, -⟩
    · -- The first frame is taken out, and nothing is skipped any more.
      rw [feed_append, feed_enclose here]
      refine ih (fun payload inside => quiet payload (List.mem_cons_of_mem _ inside))
        (fun payload inside => short payload (List.mem_cons_of_mem _ inside)) rest (Nat.zero_le _) ?_
      intro next inside before
      have fits := short next (List.mem_cons_of_mem _ (List.mem_of_mem_head? inside))
      rw [List.length_nil]
      omega
    · by_cases done : missing = []
      · rw [done, List.append_nil] at whole
        rw [← whole, feed_enclose here]
        exact Nat.zero_le _
      · rw [raw_feed_inside here whole done, List.length_append]
        refine first payload rfl ?_
        have some := List.length_pos_iff.mpr done
        rw [whole, List.length_append]
        omega

end FrameReader

end Reticulum
