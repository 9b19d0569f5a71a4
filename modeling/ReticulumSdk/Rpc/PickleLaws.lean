import ReticulumSdk.Rpc.Pickle

/-! Every pickle of a value is read as that value, whichever of its forms the writer chose. -/

namespace Reticulum

variable {data rest : Bytes} {stack : List PickleStackItem} {value : Value}

/-- Bytes in front of others are taken off again. -/
theorem readPickleBytes_append (front rest : Bytes) :
    readPickleBytes (front ++ rest) front.length = .ok (front, rest) := by
  rw [readPickleBytes, Msgpack.takeBytes_append]

/-- Bytes that are read are gone. -/
theorem readPickleBytes_le {length : Nat} {read : Bytes × Bytes}
    (done : readPickleBytes data length = .ok read) : read.2.length ≤ data.length := by
  unfold readPickleBytes Msgpack.takeBytes at done
  by_cases fits : length ≤ data.length
  · simp only [fits, if_true, Except.ok.injEq] at done
    simp [← done]
  · simp [fits] at done

@[simp] theorem toLe_length (width number : Nat) : (toLe width number).length = width := by
  simp [toLe]

/-- A number is read back from the bytes that hold it. -/
theorem readPickleLe_toLe {width number : Nat} (small : number < 256 ^ width) (rest : Bytes) :
    readPickleLe (toLe width number ++ rest) width = .ok (number, rest) := by
  have read := readPickleBytes_append (toLe width number) rest
  rw [toLe_length] at read
  rw [readPickleLe, read]
  simp [Bind.bind, Except.bind, pure, Except.pure, ofLe, toLe, Msgpack.ofBe_toBe small]

/-- Bytes are read back behind their length. -/
theorem readPickleCounted_toLe {width : Nat} {bytes : Bytes} (small : bytes.length < 256 ^ width)
    (rest : Bytes) :
    readPickleCounted (toLe width bytes.length ++ (bytes ++ rest)) width = .ok (bytes, rest) := by
  rw [readPickleCounted, readPickleLe_toLe small]
  exact readPickleBytes_append bytes rest

/-- A text is read back behind its length. -/
theorem readPickleText_toLe {width : Nat} {text : Bytes} (small : text.length < 256 ^ width)
    (valid : (Value.string text).asStr = some text) (rest : Bytes) :
    readPickleText (toLe width text.length ++ (text ++ rest)) width = .ok (.string text, rest) := by
  rw [readPickleText, readPickleCounted_toLe small]
  simp [Bind.bind, Except.bind, pure, Except.pure, valid]

/-- So are the bytes of a number. -/
theorem readPickleLe_le {width : Nat} {read : Nat × Bytes} (done : readPickleLe data width = .ok read) :
    read.2.length ≤ data.length := by
  obtain ⟨taken, digits, same⟩ := bind_eq_ok.mp done
  cases same
  exact readPickleBytes_le digits

/-- So are bytes with their length. -/
theorem readPickleCounted_le {width : Nat} {read : Bytes × Bytes}
    (done : readPickleCounted data width = .ok read) : read.2.length ≤ data.length := by
  obtain ⟨length, counted, taken⟩ := bind_eq_ok.mp done
  exact (readPickleBytes_le taken).trans (readPickleLe_le counted)

/-- So is a text with its length. -/
theorem readPickleText_le {width : Nat} {read : Value × Bytes}
    (done : readPickleText data width = .ok read) : read.2.length ≤ data.length := by
  obtain ⟨text, counted, checked⟩ := bind_eq_ok.mp done
  dsimp only at checked
  split at checked
  · cases checked
    exact readPickleCounted_le counted
  · cases checked

/-- No opcode puts bytes back. -/
theorem pickleOp_le {opcode : UInt8} {later : Bytes} {stack' : List PickleStackItem}
    (done : pickleOp opcode data stack = .ok (.next later stack')) : later.length ≤ data.length := by
  unfold pickleOp skipPickleBytes at done
  dsimp only at done
  split at done
  -- Opcodes that skip bytes.
  iterate 2
    split at done
    · cases done
      simp
    · cases done
  iterate 3
    cases done
    exact Nat.le_refl _
  iterate 2
    obtain ⟨read, taken, same⟩ := bind_eq_ok.mp done
    cases same
    exact readPickleText_le taken
  iterate 2
    obtain ⟨read, taken, same⟩ := bind_eq_ok.mp done
    cases same
    exact readPickleCounted_le taken
  iterate 4
    cases done
    exact Nat.le_refl _
  iterate 3
    obtain ⟨read, taken, same⟩ := bind_eq_ok.mp done
    cases same
    exact readPickleLe_le taken
  iterate 2
    obtain ⟨below, -, same⟩ := bind_eq_ok.mp done
    cases same
    exact Nat.le_refl _
  · split at done <;> cases done
  · cases done

/-- The loop with all the rounds that the bytes can take. -/
def execPickle (data : Bytes) (stack : List PickleStackItem) : Except RpcError Value :=
  runPickle data.length data stack

/-- Two numbers of rounds that are both enough come to the same. -/
theorem runPickle_enough {rounds other : Nat} (enough : data.length ≤ rounds)
    (also : data.length ≤ other) : runPickle rounds data stack = runPickle other data stack := by
  -- Each round of either loop reads the same opcode, and leaves fewer bytes.
  induction rounds generalizing other data stack with
  | zero =>
    obtain rfl := List.eq_nil_of_length_eq_zero (Nat.le_zero.mp enough)
    cases other <;> rfl
  | succ rounds ih =>
    cases data with
    | nil => cases other <;> rfl
    | cons opcode data =>
      rw [List.length_cons] at enough also
      obtain ⟨others, rfl⟩ : ∃ others, other = others + 1 := ⟨other - 1, by omega⟩
      simp only [runPickle]
      cases done : pickleOp opcode data stack with
      | error fault => rfl
      | ok step =>
        cases step with
        | stop value => rfl
        | next later stack' =>
          have left := pickleOp_le done
          exact ih (by omega) (by omega)

/-- The first round: an opcode, and the bytes it leaves. -/
theorem execPickle_cons (opcode : UInt8) : execPickle (opcode :: data) stack =
    pickleOp opcode data stack >>= fun step => match step with
      | .next later stack => execPickle later stack
      | .stop value => .ok value := by
  rw [execPickle, List.length_cons, runPickle]
  cases done : pickleOp opcode data stack with
  | error fault => rfl
  | ok step =>
    cases step with
    | stop value => rfl
    | next later stack' => exact runPickle_enough (pickleOp_le done) (Nat.le_refl _)

/-- An opcode that goes on is followed by the bytes it leaves. -/
theorem execPickle_next {opcode : UInt8} {later : Bytes} {stack' : List PickleStackItem}
    (done : pickleOp opcode data stack = .ok (.next later stack')) :
    execPickle (opcode :: data) stack = execPickle later stack' := by
  rw [execPickle_cons, done]
  rfl

/--
Bytes that push values onto the stack: each value in any of its forms, maps filled by one pair or by
many, and opcodes between them that push nothing.
-/
inductive Pushes : List Value → Bytes → Prop where
  | nothing : Pushes [] []
  | both {values others : List Value} {data more : Bytes} (first : Pushes values data)
      (second : Pushes others more) : Pushes (values ++ others) (data ++ more)
  | memoize : Pushes [] [0x94]
  | protocol (version : UInt8) : Pushes [] [0x80, version]
  | frame {size : Bytes} (wide : size.length = 8) : Pushes [] (0x95 :: size)
  | nil : Pushes [.nil] [0x4E]
  | yes : Pushes [.boolean true] [0x88]
  | no : Pushes [.boolean false] [0x89]
  | byte {number : Nat} (small : number < 2 ^ 8) : Pushes [.integer number] (0x4B :: toLe 1 number)
  | short {number : Nat} (small : number < 2 ^ 16) : Pushes [.integer number] (0x4D :: toLe 2 number)
  | int {number : Int} (low : -2 ^ 31 ≤ number) (high : number < 2 ^ 31) :
      Pushes [.integer number] (0x4A :: toLe 4 (bitsOfI32 number))
  | shortText {text : Bytes} (valid : (Value.string text).asStr = some text)
      (short : text.length < 2 ^ 8) : Pushes [.string text] (0x8C :: (toLe 1 text.length ++ text))
  | text {text : Bytes} (valid : (Value.string text).asStr = some text)
      (short : text.length < 2 ^ 32) : Pushes [.string text] (0x58 :: (toLe 4 text.length ++ text))
  | shortBytes {bytes : Bytes} (short : bytes.length < 2 ^ 8) :
      Pushes [.binary bytes] (0x43 :: (toLe 1 bytes.length ++ bytes))
  | bytes {bytes : Bytes} (short : bytes.length < 2 ^ 32) :
      Pushes [.binary bytes] (0x42 :: (toLe 4 bytes.length ++ bytes))
  | emptyList : Pushes [.array []] [0x5D]
  | emptyDict : Pushes [.map []] [0x7D]
  | setItem {entries : List (Value × Value)} {key value : Value} {data more : Bytes}
      (dict : Pushes [.map entries] data) (pair : Pushes [key, value] more) :
      Pushes [.map (entries ++ [(key, value)])] (data ++ (more ++ [0x73]))
  | setItems {entries pairs : List (Value × Value)} {data more : Bytes}
      (dict : Pushes [.map entries] data)
      (items : Pushes (pairs.flatMap fun pair => [pair.1, pair.2]) more) :
      Pushes [.map (entries ++ pairs)] (data ++ (0x28 :: (more ++ [0x75])))

/-- A stack with values pushed onto it, the last one on top. -/
def pushAll (values : List Value) (stack : List PickleStackItem) : List PickleStackItem :=
  values.foldl (fun stack value => .value value :: stack) stack

@[simp] theorem pushAll_nil (stack : List PickleStackItem) : pushAll [] stack = stack := rfl

@[simp] theorem pushAll_cons (value : Value) (values : List Value) (stack : List PickleStackItem) :
    pushAll (value :: values) stack = pushAll values (.value value :: stack) := rfl

@[simp] theorem pushAll_append (values others : List Value) (stack : List PickleStackItem) :
    pushAll (values ++ others) stack = pushAll others (pushAll values stack) := List.foldl_append

/-- The items above a mark are the values pushed onto it. -/
theorem splitAtMark_pushAll (values : List Value) (below : List PickleStackItem) :
    splitAtMark (pushAll values (.mark :: below)) = some (values.map .value, below) := by
  -- The value on top is the last.
  induction values using List.reverseRecOn with
  | nil => rfl
  | append_singleton values value ih =>
    rw [pushAll_append, pushAll_cons, pushAll_nil, splitAtMark.eq_3 _ _ (by simp), ih]
    simp

/-- Keys and values that alternate are paired. -/
theorem pairItems_flatMap (pairs : List (Value × Value)) :
    pairItems ((pairs.flatMap fun pair => [pair.1, pair.2]).map .value) = .ok pairs := by
  induction pairs with
  | nil => rfl
  | cons pair pairs ih => simp [pairItems, ih, Bind.bind, Except.bind, pure, Except.pure]

/-- A number of 32 bits keeps its sign. -/
theorem asI32_bitsOfI32 {number : Int} (low : -2 ^ 31 ≤ number) (high : number < 2 ^ 31) :
    bitsOfI32 number < 256 ^ 4 ∧ asI32 (bitsOfI32 number) = number := by
  unfold asI32 bitsOfI32
  omega

/-- Bytes that push values are read as those values, whatever is behind them. -/
theorem Pushes.exec {values : List Value} (pushes : Pushes values data) (rest : Bytes)
    (stack : List PickleStackItem) :
    execPickle (data ++ rest) stack = execPickle rest (pushAll values stack) := by
  induction pushes generalizing rest stack with
  | nothing => rfl
  | both _ _ first second => rw [List.append_assoc, first, second, pushAll_append]
  | memoize => exact execPickle_next rfl
  | protocol version =>
    rw [pushAll_nil]
    exact execPickle_next (by simp [pickleOp, skipPickleBytes])
  | frame wide =>
    rw [pushAll_nil]
    exact execPickle_next (by simp [pickleOp, skipPickleBytes, wide])
  | nil | yes | no | emptyList | emptyDict => exact execPickle_next rfl
  -- A number and a counted text or binary are read back from their own bytes.
  | @byte number small =>
    have read := @readPickleLe_toLe 1 number (by omega) rest
    exact execPickle_next (by simp [pickleOp, read, Bind.bind, Except.bind, pure, Except.pure])
  | @short number small =>
    have read := @readPickleLe_toLe 2 number (by omega) rest
    exact execPickle_next (by simp [pickleOp, read, Bind.bind, Except.bind, pure, Except.pure])
  | @int number low high =>
    obtain ⟨small, same⟩ := asI32_bitsOfI32 low high
    have read := readPickleLe_toLe small rest
    exact execPickle_next (by simp [pickleOp, read, same, Bind.bind, Except.bind, pure, Except.pure])
  | @shortText text valid short =>
    have read := @readPickleText_toLe 1 text (by omega) valid rest
    exact execPickle_next (by simp [pickleOp, read, Bind.bind, Except.bind, pure, Except.pure])
  | @text text valid short =>
    have read := @readPickleText_toLe 4 text (by omega) valid rest
    exact execPickle_next (by simp [pickleOp, read, Bind.bind, Except.bind, pure, Except.pure])
  | @shortBytes bytes short =>
    have read := @readPickleCounted_toLe 1 bytes (by omega) rest
    exact execPickle_next (by simp [pickleOp, read, Bind.bind, Except.bind, pure, Except.pure])
  | @bytes bytes short =>
    have read := @readPickleCounted_toLe 4 bytes (by omega) rest
    exact execPickle_next (by simp [pickleOp, read, Bind.bind, Except.bind, pure, Except.pure])
  -- The pair lies on the map that it goes to.
  | setItem dict pair ih ih' =>
    rw [List.append_assoc, List.append_assoc, ih, ih']
    exact execPickle_next rfl
  -- The items lie above the mark, and the map below it.
  | @setItems entries pairs data more dict items ih ih' =>
    rw [List.append_assoc, ih, List.cons_append, List.append_assoc, execPickle_next rfl, ih']
    refine execPickle_next ?_
    simp [pickleOp, pickleSetItems, splitAtMark_pushAll, pairItems_flatMap, Bind.bind, Except.bind, pure,
      Except.pure]

/--
Whatever form each part of a value has in a pickle of it, in whatever protocol, with whatever frames and
memos, and whatever follows the pickle, reading it gives the value.
-/
theorem Pushes.read (pickled : Pushes [value] data) (tail : Bytes) :
    readPythonPickleValue (data ++ 0x2E :: tail) = .ok value := by
  -- When the value is on the stack, the pickle stops.
  show execPickle _ _ = _
  rw [pickled.exec, execPickle_cons]
  rfl

mutual

/-- A value holds an array that is not empty. -/
def Value.hasItems : Value → Bool
  | .array items => ¬ items.isEmpty
  | .map entries => entriesHaveItems entries
  | _ => false

/-- A key or a value of some entries does. -/
def Value.entriesHaveItems : List (Value × Value) → Bool
  | [] => false
  | (key, value) :: entries => (key.hasItems || value.hasItems) || entriesHaveItems entries

end

mutual

/-- A value whose numbers are of 64 bits, and whose texts and binaries have a length of 32 bits. -/
def Value.Countable : Value → Prop
  | .integer number => -2 ^ 63 ≤ number ∧ number < 2 ^ 64
  | .string text => text.length < 2 ^ 32
  | .binary bytes => bytes.length < 2 ^ 32
  | .array items => ItemsCountable items
  | .map entries => EntriesCountable entries
  | _ => True

/-- So are the items of an array. -/
def Value.ItemsCountable : List Value → Prop
  | [] => True
  | item :: items => item.Countable ∧ ItemsCountable items

/-- So are the keys and the values of a map. -/
def Value.EntriesCountable : List (Value × Value) → Prop
  | [] => True
  | (key, value) :: entries => key.Countable ∧ value.Countable ∧ EntriesCountable entries

end

/-- APPENDS is not among the opcodes that are read. -/
def noAppends : RpcError := .text ("unsupported pickle opcode 0x" ++ hexEncode [0x65])

/-- Bytes that push values, or that end in an opcode which is not read. -/
def Written (values : List Value) (data : Bytes) (hasItems : Bool) : Prop :=
  if hasItems then ∀ rest stack, execPickle (data ++ rest) stack = .error noAppends
  else Pushes values data

variable {values others : List Value} {more : Bytes} {hasItems also : Bool}

/-- What is written in front either fails, or leaves the rest to be read. -/
theorem Written.both (first : Written values data hasItems) (second : Written others more also) :
    Written (values ++ others) (data ++ more) (hasItems || also) := by
  cases hasItems with
  | true =>
    intro rest stack
    rw [List.append_assoc]
    exact first (more ++ rest) stack
  | false =>
    cases also with
    | true =>
      intro rest stack
      rw [List.append_assoc, Pushes.exec first]
      exact second rest _
    | false => exact Pushes.both first second

/-- A number is written in a form that is read. -/
theorem writePickleInteger_pushes {number : Int} (small : -2 ^ 63 ≤ number ∧ number < 2 ^ 64)
    (written : writePickleInteger number = .ok data) : Pushes [.integer number] data := by
  unfold writePickleInteger at written
  by_cases positive : 0 ≤ number
  · -- From zero on the shortest of three forms is taken.
    obtain ⟨size, rfl⟩ := Int.eq_ofNat_of_zero_le positive
    have unsigned : (Value.integer size).asU64 = some size := by
      simp [Value.asU64]
      omega
    rw [unsigned] at written
    dsimp only at written
    split at written
    · rename_i tiny
      cases written
      exact .byte tiny
    · split at written
      · rename_i short
        cases written
        exact .short short
      · split at written
        · rename_i narrow
          cases written
          have same : bitsOfI32 size = size := by
            unfold bitsOfI32
            omega
          have pushed := @Pushes.int size (by omega) (by omega)
          rwa [same] at pushed
        · cases written
  · -- Below zero there is one form.
    have unsigned : (Value.integer number).asU64 = none := by simp [Value.asU64, positive]
    have signed : (Value.integer number).asI64 = some number :=
      if_pos ⟨by unfold isizeRange; omega, by unfold isizeRange; omega⟩
    rw [unsigned, signed] at written
    dsimp only at written
    split at written
    · rename_i fits
      cases written
      exact .int fits.1 fits.2
    · cases written

/-- A memoized value is pushed all the same. -/
theorem Pushes.memoized (pushes : Pushes values data) : Pushes values (data ++ [0x94]) := by
  simpa using pushes.both .memoize

/-- Text of a length that can be counted is written in a form that is read. -/
theorem writePickleCounted_text {text : Bytes} (valid : (Value.string text).asStr = some text)
    (countable : text.length < 2 ^ 32) : Pushes [.string text] (writePickleCounted 0x8C 0x58 text) := by
  refine Pushes.memoized ?_
  split
  · rename_i short
    exact .shortText valid short
  · rw [Nat.mod_eq_of_lt countable]
    exact .text valid countable

/-- So are bytes. -/
theorem writePickleCounted_bytes {bytes : Bytes} (countable : bytes.length < 2 ^ 32) :
    Pushes [.binary bytes] (writePickleCounted 0x43 0x42 bytes) := by
  refine Pushes.memoized ?_
  split
  · rename_i short
    exact .shortBytes short
  · rw [Nat.mod_eq_of_lt countable]
    exact .bytes countable

/-- A text that is valid is its own text. -/
theorem Value.asStr_eq {text found : Bytes} (valid : (Value.string text).asStr = some found) :
    found = text := by
  unfold Value.asStr at valid
  dsimp only at valid
  split at valid
  · exact (Option.some.inj valid).symm
  · cases valid

/-- A map whose entries are pushed above a mark. -/
theorem Written.dict {pairs : List (Value × Value)}
    (items : Written (pairs.flatMap fun pair => [pair.1, pair.2]) data hasItems) :
    Written [.map pairs] ([0x7D, 0x94, 0x28] ++ data ++ [0x75]) hasItems := by
  cases hasItems with
  | true =>
    intro rest stack
    have begins : Pushes [.map []] [0x7D, 0x94] := Pushes.emptyDict.memoized
    have shape : [0x7D, 0x94, 0x28] ++ data ++ [0x75] ++ rest =
        [0x7D, 0x94] ++ (0x28 :: (data ++ (0x75 :: rest))) := by simp
    rw [shape, begins.exec, execPickle_next rfl]
    exact items _ _
  | false =>
    have shape : [0x7D, 0x94, 0x28] ++ data ++ [0x75] = [0x7D, 0x94] ++ (0x28 :: (data ++ [0x75])) := by
      simp
    rw [shape]
    exact Pushes.setItems Pushes.emptyDict.memoized items

/-- An array with items ends in an opcode that is not read, if it does not fail before. -/
theorem Written.list (items : Written values data hasItems) :
    Written others ([0x5D, 0x94, 0x28] ++ data ++ [0x65]) true := by
  intro rest stack
  have begins : Pushes [.array []] [0x5D, 0x94] := Pushes.emptyList.memoized
  have shape : [0x5D, 0x94, 0x28] ++ data ++ [0x65] ++ rest =
      [0x5D, 0x94] ++ (0x28 :: (data ++ (0x65 :: rest))) := by simp
  rw [shape, begins.exec, execPickle_next rfl]
  cases hasItems with
  | true => exact items _ _
  | false =>
    rw [Pushes.exec items, execPickle_cons]
    rfl

mutual

/-- What is written of a value is read as it, unless there is an array with items in it. -/
theorem writePicklePayload_written : ∀ {value : Value} {data : Bytes}, value.Countable →
    writePicklePayload value = .ok data → Written [value] data value.hasItems
  | .nil, data, _, written => by
    cases written
    exact Pushes.nil
  | .boolean false, data, _, written => by
    cases written
    exact Pushes.no
  | .boolean true, data, _, written => by
    cases written
    exact Pushes.yes
  | .integer number, data, small, written => writePickleInteger_pushes small written
  | .string text, data, countable, written => by
    simp only [writePicklePayload] at written
    split at written
    · rename_i found valid
      obtain rfl := Value.asStr_eq valid
      cases written
      exact writePickleCounted_text valid countable
    · cases written
  | .binary bytes, data, countable, written => by
    cases written
    exact writePickleCounted_bytes countable
  | .array [], data, _, written => by
    cases written
    exact Pushes.emptyList.memoized
  | .array (item :: items), data, countable, written => by
    obtain ⟨first, firstWritten, written⟩ := bind_eq_ok.mp written
    obtain ⟨rest, restWritten, written⟩ := bind_eq_ok.mp written
    cases written
    have all := (writePicklePayload_written countable.1 firstWritten).both
      (writePickleItems_written countable.2 restWritten)
    have listed : Written [.array (item :: items)] _ true := all.list
    simpa [Value.hasItems] using listed
  | .map [], data, _, written => by
    cases written
    exact Pushes.emptyDict.memoized
  | .map ((key, value) :: entries), data, countable, written => by
    obtain ⟨firstKey, keyWritten, written⟩ := bind_eq_ok.mp written
    obtain ⟨firstValue, valueWritten, written⟩ := bind_eq_ok.mp written
    obtain ⟨rest, restWritten, written⟩ := bind_eq_ok.mp written
    cases written
    have pair := (writePicklePayload_written countable.1 keyWritten).both
      (writePicklePayload_written countable.2.1 valueWritten)
    have all := pair.both (writePickleEntries_written countable.2.2 restWritten)
    simpa [Value.hasItems, Value.entriesHaveItems] using
      @Written.dict _ _ ((key, value) :: entries) all
  | .f32 _, data, _, written => by cases written
  | .f64 _, data, _, written => by cases written
  | .ext _ _, data, _, written => by cases written

/-- So are items, one after another. -/
theorem writePickleItems_written : ∀ {items : List Value} {data : Bytes}, Value.ItemsCountable items →
    writePickleItems items = .ok data → Written items data (items.any Value.hasItems)
  | [], data, _, written => by
    cases written
    exact Pushes.nothing
  | item :: items, data, countable, written => by
    obtain ⟨first, firstWritten, written⟩ := bind_eq_ok.mp written
    obtain ⟨rest, restWritten, written⟩ := bind_eq_ok.mp written
    cases written
    exact (writePicklePayload_written countable.1 firstWritten).both
      (writePickleItems_written countable.2 restWritten)

/-- So are keys and values, one after another. -/
theorem writePickleEntries_written : ∀ {entries : List (Value × Value)} {data : Bytes},
    Value.EntriesCountable entries → writePickleEntries entries = .ok data →
      Written (entries.flatMap fun pair => [pair.1, pair.2]) data (Value.entriesHaveItems entries)
  | [], data, _, written => by
    cases written
    exact Pushes.nothing
  | (key, value) :: entries, data, countable, written => by
    obtain ⟨first, keyWritten, written⟩ := bind_eq_ok.mp written
    obtain ⟨second, valueWritten, written⟩ := bind_eq_ok.mp written
    obtain ⟨rest, restWritten, written⟩ := bind_eq_ok.mp written
    cases written
    have pair := (writePicklePayload_written countable.1 keyWritten).both
      (writePicklePayload_written countable.2.1 valueWritten)
    exact pair.both (writePickleEntries_written countable.2.2 restWritten)

end

/--
A value that the writer of pickles accepts is read back from its pickle exactly when no array in it has
items; where one has, reading ends at the opcode that would append them.
-/
theorem pickle_round_trip (countable : value.Countable) (written : writePythonPickleValue value = .ok data) :
    readPythonPickleValue data = if value.hasItems then .error noAppends else .ok value := by
  obtain ⟨payload, payloadWritten, written⟩ := bind_eq_ok.mp written
  cases written
  have read := writePicklePayload_written countable payloadWritten
  show execPickle _ _ = _
  rw [List.append_assoc, (Pushes.protocol 0x05).exec]
  generalize value.hasItems = hasItems at read ⊢
  cases hasItems with
  | true => exact read _ _
  | false => exact Pushes.read read []

/-- A map from a text and from a byte comes back, and one that holds an array does not. -/
theorem pickle_round_trip_map :
    readPythonPickleValue [0x80, 5, 0x7D, 0x94, 0x28, 0x8C, 3, 103, 101, 116, 0x94, 0x4A, 251, 255, 255, 255,
        0x43, 1, 7, 0x94, 0x4E, 0x75, 0x2E] =
      .ok (.map [(.string (keyText "get"), .integer (-5)), (.binary [7], .nil)]) ∧
    readPythonPickleValue [0x80, 5, 0x7D, 0x94, 0x28, 0x8C, 1, 110, 0x94, 0x5D, 0x94, 0x28, 0x88, 0x65, 0x75,
        0x2E] = .error noAppends := by
  have get : (keyText "get").length < 2 ^ 32 := by decide +kernel
  have name : (keyText "n").length < 2 ^ 32 := by decide +kernel
  have plain : (Value.map [(.string (keyText "get"), .integer (-5)), (.binary [7], .nil)]).Countable :=
    ⟨get, ⟨by decide, by decide⟩, (by decide : (1 : Nat) < 2 ^ 32), trivial, trivial⟩
  have listed : (Value.map [(.string (keyText "n"), .array [.boolean true])]).Countable :=
    ⟨name, ⟨trivial, trivial⟩, trivial⟩
  constructor
  · exact pickle_round_trip plain (by decide +kernel)
  · exact pickle_round_trip listed (by decide +kernel)

end Reticulum
