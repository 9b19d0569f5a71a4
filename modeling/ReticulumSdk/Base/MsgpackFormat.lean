import Mathlib.Data.List.Induction
import ReticulumSdk.Base.Msgpack

/-! Dictionaries of plain values in MessagePack, every part in the shortest form it has. -/

namespace Reticulum.Msgpack

/-- A writer and a reader of MessagePack values; the writer may fail, and so may the reader. -/
structure Codec where
  writeValue : Value → Option Bytes
  readValue : Bytes → Option Value

/-- The fewest of one, two, four and eight bytes that hold a number. -/
def numberWidth (number : Nat) : Nat :=
  if number < 2 ^ 8 then 1 else if number < 2 ^ 16 then 2 else if number < 2 ^ 32 then 4 else 8

/-- A length as the format counts it, in 32 bits. -/
def counted (length : Nat) : Nat := length % 2 ^ 32

/-- A number of 64 bits. -/
def numberRange : Nat := 2 ^ 64

/-- Nothing, a number from zero on, a short text or some bytes. -/
def Plain : Value → Prop
  | .nil => True
  | .integer number => 0 ≤ number ∧ number < numberRange
  | .string text => (Value.string text).asStr = some text ∧ text.length < 32
  | .binary _ => True
  | _ => False

/-- A value that holds no more bytes than the format can count. -/
def LengthFits : Value → Prop
  | .binary data => data.length < 2 ^ 32
  | _ => True

/-- The bytes of the shortest form of a number. -/
def numberLength (number : Nat) : Nat := if number < 2 ^ 7 then 1 else 1 + numberWidth number

/-- The bytes of the shortest form of a binary: its marker, its length and the bytes it holds. -/
def binaryLength (length : Nat) : Nat := 1 + numberWidth (counted length) + length

/-- The bytes of the shortest form of a plain value. -/
def plainLength : Value → Nat
  | .nil => 1
  | .integer number => numberLength number.toNat
  | .string text => 1 + text.length
  | .binary data => binaryLength data.length
  | _ => 0

/-- The bytes of the shortest forms of some entries. -/
def entriesLength : List (Value × Value) → Nat
  | [] => 0
  | (key, value) :: entries => plainLength key + (plainLength value + entriesLength entries)

/-- The bytes of the shortest form of a short dictionary of plain values. -/
def dictLength (entries : List (Value × Value)) : Nat := 1 + entriesLength entries

/-- A short dictionary of plain values. -/
structure PlainDict (entries : List (Value × Value)) : Prop where
  short : entries.length < 16
  plain : ∀ entry ∈ entries, Plain entry.1 ∧ Plain entry.2

/--
A codec of the format: a short dictionary of plain values is written in the shortest form, it is read
again if its lengths can be counted, and no value that is read is longer than what it was read from or
than the format can count.
-/
structure Codec.Lawful (codec : Codec) : Prop where
  writes : ∀ entries, PlainDict entries →
    ∃ data, codec.writeValue (.map entries) = some data ∧ data.length = dictLength entries
  reads : ∀ entries data, PlainDict entries →
    (∀ entry ∈ entries, LengthFits entry.1 ∧ LengthFits entry.2) →
    codec.writeValue (.map entries) = some data → codec.readValue data = some (.map entries)
  bounded : ∀ data entries, codec.readValue data = some (.map entries) →
    ∀ entry ∈ entries, ∀ bytes, entry.2.asSlice = some bytes →
      bytes.length ≤ data.length ∧ bytes.length < 2 ^ 32

/-- A number in so many bytes, the highest first. -/
def toBe : Nat → Nat → Bytes
  | 0, _ => []
  | width + 1, number => toBe width (number / 256) ++ [UInt8.ofNat number]

/-- The number that bytes stand for, the highest first. -/
def ofBe (digits : Bytes) : Nat := digits.foldl (fun number digit => number * 256 + digit.toNat) 0

@[simp] theorem toBe_length (width number : Nat) : (toBe width number).length = width := by
  -- Each digit adds one byte at the end.
  induction width generalizing number with
  | zero => rfl
  | succ width ih => simp [toBe, ih]

/-- A number that so many bytes hold is read as it was written. -/
theorem ofBe_toBe {width number : Nat} (small : number < 256 ^ width) :
    ofBe (toBe width number) = number := by
  -- The last byte is the remainder, and the others stand for the quotient.
  induction width generalizing number with
  | zero =>
    have zero : number = 0 := by simpa using small
    rw [zero]
    rfl
  | succ width ih =>
    -- The quotient has one digit less.
    have quotient : number / 256 < 256 ^ width := by
      rw [Nat.pow_succ] at small
      omega
    have front := ih quotient
    simp only [ofBe] at front
    simp only [ofBe, toBe, List.foldl_append, front, List.foldl_cons, List.foldl_nil,
      UInt8.toNat_ofNat']
    omega

/-- So many bytes stand for a number they can hold. -/
theorem ofBe_lt (digits : Bytes) : ofBe digits < 256 ^ digits.length := by
  -- The last byte is one more base-256 digit, so the induction takes the digits from the end.
  induction digits using List.reverseRecOn with
  | nil => decide
  | append_singleton digits digit ih =>
    have byte := digit.toNat_lt
    simp only [ofBe] at ih
    simp only [ofBe, List.foldl_append, List.foldl_cons, List.foldl_nil, List.length_append,
      List.length_cons, List.length_nil, Nat.zero_add, Nat.pow_succ]
    omega

/-- The first bytes of a buffer and those behind them. -/
def takeBytes (count : Nat) (data : Bytes) : Option (Bytes × Bytes) :=
  if count ≤ data.length then some (data.take count, data.drop count) else none

/-- Bytes in front of others are taken off again. -/
theorem takeBytes_append (front rest : Bytes) :
    takeBytes front.length (front ++ rest) = some (front, rest) := by
  simp [takeBytes]

/-- A number in so many bytes, and the bytes behind it. -/
def readNumber (width : Nat) (data : Bytes) : Option (Nat × Bytes) :=
  (takeBytes width data).map fun (digits, rest) => (ofBe digits, rest)

/-- A number is read back in front of any bytes. -/
theorem readNumber_toBe {width number : Nat} (small : number < 256 ^ width) (rest : Bytes) :
    readNumber width (toBe width number ++ rest) = some (number, rest) := by
  -- The width says how many bytes to take, and those are the digits that were written.
  have taken := takeBytes_append (toBe width number) rest
  rw [toBe_length] at taken
  simp [readNumber, taken, ofBe_toBe small]

/-- The marker of a number of some width. -/
def numberMarker (width : Nat) : UInt8 :=
  if width = 1 then 0xCC else if width = 2 then 0xCD else if width = 4 then 0xCE else 0xCF

/-- The marker of a binary whose length has some width. -/
def binaryMarker (width : Nat) : UInt8 :=
  if width = 1 then 0xC4 else if width = 2 then 0xC5 else 0xC6

/-- The shortest form of a plain value. -/
def writePlain : Value → Option Bytes
  | .nil => some [0xC0]
  | .integer number =>
    let number := number.toNat
    if number < 2 ^ 7 then some [UInt8.ofNat number]
    else some (numberMarker (numberWidth number) :: toBe (numberWidth number) number)
  | .string text => some ((0xA0 + UInt8.ofNat text.length) :: text)
  | .binary data =>
    let width := numberWidth (counted data.length)
    some (binaryMarker width :: (toBe width (counted data.length) ++ data))
  | _ => none

/-- Some bytes behind their length. -/
def readBinary (width : Nat) (data : Bytes) : Option (Value × Bytes) := do
  let (length, rest) ← readNumber width data
  let (bytes, rest) ← takeBytes length rest
  return (.binary bytes, rest)

/-- A plain value behind a marker that tells no more than the kind of it. -/
def readKind (marker : UInt8) (rest : Bytes) : Option (Value × Bytes) :=
  match marker with
  | 0xC0 => some (.nil, rest)
  | 0xC4 => readBinary 1 rest
  | 0xC5 => readBinary 2 rest
  | 0xC6 => readBinary 4 rest
  | 0xCC => (readNumber 1 rest).map fun (number, rest) => (.integer number, rest)
  | 0xCD => (readNumber 2 rest).map fun (number, rest) => (.integer number, rest)
  | 0xCE => (readNumber 4 rest).map fun (number, rest) => (.integer number, rest)
  | 0xCF => (readNumber 8 rest).map fun (number, rest) => (.integer number, rest)
  | _ => none

/-- A plain value, and the bytes behind it. -/
def readPlain : Bytes → Option (Value × Bytes)
  | [] => none
  | marker :: rest =>
    -- The smallest markers are numbers themselves, and the next ones hold the length of a text.
    if marker < 0x80 then some (.integer marker.toNat, rest)
    else if 0xA0 ≤ marker ∧ marker < 0xC0 then
      (takeBytes (marker.toNat - 0xA0) rest).map fun (text, rest) => (.string text, rest)
    else readKind marker rest

/-- The entries of a dictionary in order. -/
def writeEntries : List (Value × Value) → Option Bytes
  | [] => some []
  | (key, value) :: entries => do
    let front ← writePlain key
    let middle ← writePlain value
    let later ← writeEntries entries
    return front ++ (middle ++ later)

/-- So many entries of a dictionary. -/
def readEntries : Nat → Bytes → Option (List (Value × Value))
  | 0, _ => some []
  | count + 1, data => do
    let (key, rest) ← readPlain data
    let (value, rest) ← readPlain rest
    let entries ← readEntries count rest
    return (key, value) :: entries

/-- A codec for short dictionaries of plain values. -/
def plainCodec : Codec where
  writeValue
    | .map entries => (writeEntries entries).map ((0x80 + UInt8.ofNat entries.length) :: ·)
    | _ => none
  readValue
    | [] => none
    | marker :: rest =>
      if 0x80 ≤ marker ∧ marker < 0x90 then (readEntries (marker.toNat - 0x80) rest).map .map else none

/-- A number is held by the bytes it is given. -/
theorem lt_numberWidth {number : Nat} (small : number < numberRange) :
    number < 256 ^ numberWidth number := by
  -- The width is the first of the four that holds the number.
  unfold numberWidth
  unfold numberRange at small
  split
  · omega
  · split
    · omega
    · split <;> omega

/-- A number takes one, two, four or eight bytes. -/
theorem numberWidth_cases (number : Nat) :
    numberWidth number = 1 ∨ numberWidth number = 2 ∨ numberWidth number = 4 ∨ numberWidth number = 8 := by
  -- The four branches of the width, in order.
  unfold numberWidth
  split
  · exact .inl rfl
  · split
    · exact .inr (.inl rfl)
    · split
      · exact .inr (.inr (.inl rfl))
      · exact .inr (.inr (.inr rfl))

/-- A length takes at most four. -/
theorem numberWidth_counted (length : Nat) : numberWidth (counted length) ≠ 8 := by
  -- What is counted in 32 bits is below the largest bound.
  have small : counted length < 2 ^ 32 := Nat.mod_lt _ (by decide)
  unfold numberWidth
  split
  · decide
  · split
    · decide
    · decide

/-- A value in one byte is read back from it. -/
private theorem toNat_ofNat_small {number : Nat} (small : number < 256) :
    (UInt8.ofNat number).toNat = number := by
  rw [UInt8.toNat_ofNat']
  exact Nat.mod_eq_of_lt small

/-- Plain values are written in the shortest form. -/
theorem writePlain_length {value : Value} (plain : Plain value) :
    ∃ data, writePlain value = some data ∧ data.length = plainLength value := by
  -- One case for each kind of plain value, and no other kind is plain.
  cases value with
  | nil => exact ⟨_, rfl, rfl⟩
  | integer number =>
    simp only [writePlain, plainLength, numberLength]
    -- A small integer is its own byte, and any other has a marker before its digits.
    split
    · exact ⟨_, rfl, rfl⟩
    · refine ⟨_, rfl, ?_⟩
      rw [List.length_cons, toBe_length, Nat.add_comm]
  | string text =>
    refine ⟨_, rfl, ?_⟩
    rw [List.length_cons, plainLength, Nat.add_comm]
  | binary data =>
    refine ⟨_, rfl, ?_⟩
    rw [List.length_cons, List.length_append, toBe_length, plainLength, binaryLength]
    omega
  | _ => exact plain.elim

/-- A marker of numbers is followed by as many bytes as it says. -/
private theorem readPlain_number {width : Nat}
    (known : width = 1 ∨ width = 2 ∨ width = 4 ∨ width = 8) (rest : Bytes) :
    readPlain (numberMarker width :: rest) =
      (readNumber width rest).map fun (number, rest) => (.integer number, rest) := by
  rcases known with rfl | rfl | rfl | rfl <;> rfl

/-- A marker of binaries is followed by a length of as many bytes as it says. -/
private theorem readPlain_binary {width : Nat} (known : width = 1 ∨ width = 2 ∨ width = 4)
    (rest : Bytes) : readPlain (binaryMarker width :: rest) = readBinary width rest := by
  rcases known with rfl | rfl | rfl <;> rfl

/-- A count put on top of the first marker of its kind stays below the markers of the next kind. -/
private theorem marker_within (first limit : UInt8) {count : Nat}
    (room : first.toNat + count < limit.toNat) :
    (first ≤ first + UInt8.ofNat count ∧ first + UInt8.ofNat count < limit) ∧
      (first + UInt8.ofNat count).toNat = first.toNat + count := by
  -- The sum is below the limit, and so it does not wrap.
  have below := limit.toNat_lt
  have sum : (first + UInt8.ofNat count).toNat = first.toNat + count := by
    rw [UInt8.toNat_add, toNat_ofNat_small (by omega)]
    exact Nat.mod_eq_of_lt (by omega)
  rw [UInt8.le_iff_toNat_le, UInt8.lt_iff_toNat_lt, sum]
  exact ⟨⟨Nat.le_add_right _ _, room⟩, rfl⟩

/-- An integer is read back from its own marker, or behind the marker of its width. -/
private theorem readPlain_integer {number : Int} (plain : Plain (.integer number)) {data : Bytes}
    (written : writePlain (.integer number) = some data) (rest : Bytes) :
    readPlain (data ++ rest) = some (.integer number, rest) := by
  have positive := Int.toNat_of_nonneg plain.1
  simp only [writePlain] at written
  split at written
  · -- A small number is its own marker.
    rename_i small
    obtain rfl := Option.some.inj written
    have back := toNat_ofNat_small (show number.toNat < 256 by omega)
    have below : UInt8.ofNat number.toNat < 0x80 := by
      rw [UInt8.lt_iff_toNat_lt, back]
      exact small
    rw [List.singleton_append, readPlain, if_pos below, back, positive]
  · -- Any other has its digits behind the marker of their number.
    obtain rfl := Option.some.inj written
    have small : number.toNat < numberRange := by
      have bound := plain.2
      omega
    rw [List.cons_append, readPlain_number (numberWidth_cases _),
      readNumber_toBe (lt_numberWidth small), Option.map_some]
    simp only [positive]

/-- A short text is read back behind the marker that holds its length. -/
private theorem readPlain_text {text : Bytes} (short : text.length < 32) (rest : Bytes) :
    readPlain ((0xA0 + UInt8.ofNat text.length) :: (text ++ rest)) = some (.string text, rest) := by
  obtain ⟨inside, marker⟩ := marker_within 0xA0 0xC0 (show 160 + text.length < 192 by omega)
  -- The markers of texts are above those of small numbers.
  have high : ¬ (0xA0 + UInt8.ofNat text.length : UInt8) < 0x80 := by
    rw [UInt8.lt_iff_toNat_lt, marker]
    exact Nat.not_lt.mpr (show 128 ≤ 160 + text.length by omega)
  have length : (0xA0 + UInt8.ofNat text.length : UInt8).toNat - 0xA0 = text.length := by
    rw [marker]
    exact Nat.add_sub_cancel_left _ _
  rw [readPlain, if_neg high, if_pos inside, length, takeBytes_append, Option.map_some]

/-- Bytes are read back behind their length, if it can be counted. -/
private theorem readPlain_bytes {bytes : Bytes} (countable : bytes.length < 2 ^ 32) (rest : Bytes) :
    readPlain (binaryMarker (numberWidth (counted bytes.length)) ::
      (toBe (numberWidth (counted bytes.length)) (counted bytes.length) ++ (bytes ++ rest))) =
        some (.binary bytes, rest) := by
  have same : counted bytes.length = bytes.length := Nat.mod_eq_of_lt countable
  -- A length has a marker for every width but the largest.
  have known : numberWidth (counted bytes.length) = 1 ∨ numberWidth (counted bytes.length) = 2 ∨
      numberWidth (counted bytes.length) = 4 := by
    have others := numberWidth_cases (counted bytes.length)
    have narrow := numberWidth_counted bytes.length
    omega
  have small : counted bytes.length < numberRange := by
    unfold counted numberRange
    omega
  -- The length says how many bytes to take.
  rw [readPlain_binary known, readBinary, readNumber_toBe (lt_numberWidth small), same]
  simp only [Bind.bind, Option.bind, takeBytes_append]
  rfl

/-- A plain value whose length can be counted is read as it was written, in front of any bytes. -/
theorem readPlain_writePlain {value : Value} {data : Bytes} (plain : Plain value)
    (countable : LengthFits value) (written : writePlain value = some data) (rest : Bytes) :
    readPlain (data ++ rest) = some (value, rest) := by
  -- One case for each kind of plain value.
  cases value with
  | nil =>
    obtain rfl := Option.some.inj written
    rfl
  | integer number => exact readPlain_integer plain written rest
  | string text =>
    obtain rfl := Option.some.inj written
    exact readPlain_text plain.2 rest
  | binary bytes =>
    obtain rfl := Option.some.inj written
    rw [List.cons_append, List.append_assoc]
    exact readPlain_bytes countable rest
  | _ => exact plain.elim

/-- A value and the bytes behind it: neither is longer than the buffer, and the value can be counted. -/
def Inside (data : Bytes) (read : Value × Bytes) : Prop :=
  read.2.length ≤ data.length ∧
    ∀ bytes, read.1.asSlice = some bytes → bytes.length ≤ data.length ∧ bytes.length < 2 ^ 32

/-- What is taken off is a part of the buffer of the length that was asked for. -/
private theorem takeBytes_le {count : Nat} {data front rest : Bytes}
    (taken : takeBytes count data = some (front, rest)) :
    front.length = count ∧ front.length ≤ data.length ∧ rest.length ≤ data.length := by
  -- What is taken and what is left are two ends of the same input.
  unfold takeBytes at taken
  split at taken
  · rename_i enough
    obtain ⟨rfl, rfl⟩ := Prod.mk.inj (Option.some.inj taken)
    rw [List.length_take, List.length_drop]
    omega
  · cases taken

/-- A number is one that its bytes can hold, and leaves the rest of the buffer. -/
private theorem readNumber_le {width number : Nat} {data rest : Bytes}
    (read : readNumber width data = some (number, rest)) :
    number < 256 ^ width ∧ rest.length ≤ data.length := by
  -- The digits are exactly as many as the width, which bounds the number.
  obtain ⟨⟨digits, later⟩, taken, same⟩ := Option.map_eq_some_iff.mp read
  obtain ⟨rfl, rfl⟩ := Prod.mk.inj same
  obtain ⟨length, -, shorter⟩ := takeBytes_le taken
  exact ⟨length ▸ ofBe_lt digits, shorter⟩

/-- A value that holds no bytes is inside. -/
private theorem inside_empty {value : Value} {data rest : Bytes} (shorter : rest.length ≤ data.length)
    (empty : value.asSlice = none) : Inside data (value, rest) := by
  -- A value without bytes has nothing to compare with the input.
  refine ⟨shorter, fun bytes held => ?_⟩
  rw [empty] at held
  cases held

/-- A number holds no bytes. -/
private theorem inside_number {width : Nat} {data : Bytes} {read : Value × Bytes}
    (done : (readNumber width data).map (fun (number, rest) => (Value.integer number, rest)) = some read) :
    Inside data read := by
  obtain ⟨⟨number, rest⟩, taken, rfl⟩ := Option.map_eq_some_iff.mp done
  exact inside_empty (readNumber_le taken).2 rfl

/-- A binary is a part of the buffer behind its length, which takes four bytes at most. -/
private theorem inside_binary {width : Nat} {data : Bytes} {read : Value × Bytes} (narrow : width ≤ 4)
    (done : readBinary width data = some read) : Inside data read := by
  -- The header gives the length, and the bytes are then taken from what follows it.
  simp only [readBinary, Option.bind_eq_bind, Option.bind_eq_some_iff] at done
  obtain ⟨⟨length, middle⟩, counted, ⟨bytes, rest⟩, taken, same⟩ := done
  obtain rfl := Option.some.inj same
  dsimp only at taken
  obtain ⟨held, shorter⟩ := readNumber_le counted
  obtain ⟨count, part, later⟩ := takeBytes_le taken
  -- A length of at most four bytes is below 2 ^ 32.
  have limit : 256 ^ width ≤ 256 ^ 4 := Nat.pow_le_pow_right (by decide) narrow
  refine ⟨Nat.le_trans later shorter, fun found same => ?_⟩
  obtain rfl := Option.some.inj same
  exact ⟨Nat.le_trans part shorter, by rw [count]; omega⟩

/-- Behind a marker everything is shorter still. -/
private theorem Inside.cons {marker : UInt8} {data : Bytes} {read : Value × Bytes}
    (inside : Inside data read) : Inside (marker :: data) read :=
  ⟨Nat.le_succ_of_le inside.1, fun bytes held =>
    ⟨Nat.le_succ_of_le (inside.2 bytes held).1, (inside.2 bytes held).2⟩⟩

/-- A plain value is no longer than the buffer it is read from. -/
theorem readPlain_inside {data : Bytes} {read : Value × Bytes} (done : readPlain data = some read) :
    Inside data read := by
  cases data with
  | nil => cases done
  | cons marker rest =>
    refine Inside.cons ?_
    -- One case for each kind of marker.
    rw [readPlain] at done
    split at done
    · obtain rfl := Option.some.inj done
      -- A small number stands in its marker.
      exact inside_empty (Nat.le_refl _) rfl
    · split at done
      · -- A text has fewer than 32 bytes.
        rename_i high text
        obtain ⟨⟨bytes, later⟩, taken, rfl⟩ := Option.map_eq_some_iff.mp done
        obtain ⟨length, part, shorter⟩ := takeBytes_le taken
        have small := marker.toNat_lt
        refine ⟨shorter, fun found same => ?_⟩
        obtain rfl := Option.some.inj same
        omega
      · unfold readKind at done
        split at done
        · obtain rfl := Option.some.inj done
          exact inside_empty (Nat.le_refl _) rfl
        · -- Lengths take at most four bytes.
          exact inside_binary (by decide) done
        · exact inside_binary (by decide) done
        · exact inside_binary (by decide) done
        · exact inside_number done
        · exact inside_number done
        · exact inside_number done
        · exact inside_number done
        · cases done

/-- The values of a dictionary are no longer than the buffer they are read from. -/
theorem readEntries_inside {count : Nat} {data : Bytes} {entries : List (Value × Value)}
    (done : readEntries count data = some entries) {entry : Value × Value} (member : entry ∈ entries)
    {bytes : Bytes} (held : entry.2.asSlice = some bytes) :
    bytes.length ≤ data.length ∧ bytes.length < 2 ^ 32 := by
  induction count generalizing data entries with
  | zero =>
    obtain rfl := Option.some.inj done
    cases member
  | succ count ih =>
    simp only [readEntries, Option.bind_eq_bind, Option.bind_eq_some_iff] at done
    obtain ⟨⟨key, middle⟩, first, ⟨value, rest⟩, second, later, others, same⟩ := done
    obtain rfl := Option.some.inj same
    -- Each entry starts behind the one before.
    have behindKey := (readPlain_inside first).1
    have behind := (readPlain_inside second).1
    rcases List.mem_cons.mp member with rfl | member
    · have inside := (readPlain_inside second).2 bytes held
      exact ⟨Nat.le_trans inside.1 behindKey, inside.2⟩
    · have inside := ih others member
      exact ⟨Nat.le_trans inside.1 (Nat.le_trans behind behindKey), inside.2⟩

/-- The entries of a dictionary are written in the shortest form. -/
theorem writeEntries_length {entries : List (Value × Value)}
    (plain : ∀ entry ∈ entries, Plain entry.1 ∧ Plain entry.2) :
    ∃ data, writeEntries entries = some data ∧ data.length = entriesLength entries := by
  -- Each entry adds its key and its value.
  induction entries with
  | nil => exact ⟨_, rfl, rfl⟩
  | cons entry entries ih =>
    obtain ⟨key, value⟩ := entry
    obtain ⟨front, keyWritten, keyLength⟩ := writePlain_length (plain _ List.mem_cons_self).1
    obtain ⟨middle, valueWritten, valueLength⟩ := writePlain_length (plain _ List.mem_cons_self).2
    obtain ⟨later, written, length⟩ := ih fun entry member => plain entry (List.mem_cons_of_mem _ member)
    refine ⟨front ++ (middle ++ later), ?_, ?_⟩
    · simp only [writeEntries, keyWritten, valueWritten, written, Bind.bind, Option.bind, pure]
    · rw [List.length_append, List.length_append, keyLength, valueLength, length, entriesLength]

/-- The entries of a dictionary are read as they were written. -/
theorem readEntries_writeEntries {entries : List (Value × Value)} {data : Bytes}
    (plain : ∀ entry ∈ entries, Plain entry.1 ∧ Plain entry.2)
    (countable : ∀ entry ∈ entries, LengthFits entry.1 ∧ LengthFits entry.2)
    (written : writeEntries entries = some data) : readEntries entries.length data = some entries := by
  -- Each key and value is read off the front and leaves the later entries as they were written.
  induction entries generalizing data with
  | nil => rfl
  | cons entry entries ih =>
    obtain ⟨key, value⟩ := entry
    simp only [writeEntries, Option.bind_eq_bind, Option.bind_eq_some_iff] at written
    obtain ⟨front, keyWritten, middle, valueWritten, later, others, same⟩ := written
    obtain rfl := Option.some.inj same
    have plainHere := plain _ List.mem_cons_self
    have countableHere := countable _ List.mem_cons_self
    have rest := ih (fun entry member => plain entry (List.mem_cons_of_mem _ member))
      (fun entry member => countable entry (List.mem_cons_of_mem _ member)) others
    simp only [List.length_cons, readEntries, Bind.bind, Option.bind,
      readPlain_writePlain plainHere.1 countableHere.1 keyWritten,
      readPlain_writePlain plainHere.2 countableHere.2 valueWritten, rest, pure]

/-- The codec of short dictionaries follows the format. -/
theorem plainCodec_lawful : plainCodec.Lawful := by
  constructor
  · intro entries dict
    obtain ⟨data, written, length⟩ := writeEntries_length dict.plain
    refine ⟨(0x80 + UInt8.ofNat entries.length) :: data, ?_, ?_⟩
    · simp only [plainCodec, written, Option.map_some]
    · rw [List.length_cons, length, dictLength, Nat.add_comm]
  · intro entries data dict countable written
    obtain ⟨body, bodyWritten, rfl⟩ := Option.map_eq_some_iff.mp written
    -- The marker of a short dictionary holds the number of its entries.
    have short := dict.short
    obtain ⟨inside, marker⟩ := marker_within 0x80 0x90 (show 128 + entries.length < 144 by omega)
    have count : (0x80 + UInt8.ofNat entries.length : UInt8).toNat - 0x80 = entries.length := by
      rw [marker]
      exact Nat.add_sub_cancel_left _ _
    simp only [plainCodec]
    rw [if_pos inside, count, readEntries_writeEntries dict.plain countable bodyWritten,
      Option.map_some]
  · -- What is read in front is not longer than what is behind the marker.
    intro data entries read entry member bytes held
    cases data with
    | nil => cases read
    | cons marker rest =>
      simp only [plainCodec] at read
      split at read
      · obtain ⟨found, others, same⟩ := Option.map_eq_some_iff.mp read
        obtain rfl := Value.map.inj same
        have inside := readEntries_inside others member held
        exact ⟨Nat.le_succ_of_le inside.1, inside.2⟩
      · cases read

end Reticulum.Msgpack
