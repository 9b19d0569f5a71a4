import ReticulumSdk.Base.Checked

/-! Items behind one another in a stream, and a reader that takes them off its front. -/

namespace Reticulum

variable {α β ε : Type}

/-- A reader that takes an item off where it was written, and nothing while a part of it is missing. -/
structure Prefixed (write : α → List β) (read : List β → Except ε (α × List β)) (fits : α → Prop) :
    Prop where
  whole : ∀ item rest, fits item → read (write item ++ rest) = .ok (item, rest)
  cut : ∀ item front back, fits item → write item = front ++ back → back ≠ [] →
    ∃ fault, read front = .error fault

/-- Items off the front of a stream, up to the first that cannot be read or so many of them. -/
def readUpTo (read : List β → Except ε (α × List β)) : (count : Nat) → List β → List α
  | 0, _ => []
  | count + 1, stream =>
    match read stream with
    | .ok (item, rest) => item :: readUpTo read count rest
    | .error _ => []

namespace Prefixed

variable {write : α → List β} {read : List β → Except ε (α × List β)} {fits : α → Prop} {items : List α}

/-- The items in front of anything are taken off in the order they came. -/
theorem readUpTo_append (prefixed : Prefixed write read fits) (fit : ∀ item ∈ items, fits item)
    (count : Nat) (rest : List β) : readUpTo read (items.length + count) (items.flatMap write ++ rest) =
      items ++ readUpTo read count rest := by
  -- The first item is taken off, and the others are behind it.
  induction items with
  | nil => simp
  | cons item items ih =>
    have others := ih fun item member => fit item (List.mem_cons_of_mem _ member)
    have first := prefixed.whole item (items.flatMap write ++ rest) (fit item List.mem_cons_self)
    rw [List.length_cons, Nat.add_right_comm, readUpTo, List.flatMap_cons, List.append_assoc, first]
    simp [others]

/-- A stream that breaks off gives the items that came whole, and no other. -/
theorem readUpTo_cut (prefixed : Prefixed write read fits) (fit : ∀ item ∈ items, fits item)
    {item : α} {front back : List β} (last : fits item) (split : write item = front ++ back)
    (missing : back ≠ []) (count : Nat) :
    readUpTo read (items.length + count) (items.flatMap write ++ front) = items := by
  rw [prefixed.readUpTo_append fit]
  obtain ⟨fault, failed⟩ := prefixed.cut item front back last split missing
  cases count with
  | zero => simp [readUpTo]
  | succ count => simp [readUpTo, failed]

end Prefixed

end Reticulum
