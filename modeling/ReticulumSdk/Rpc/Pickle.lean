import ReticulumSdk.Transport.Discovery

/-! Python pickles as the control port reads and writes them: values in postfix form on a stack. -/

namespace Reticulum

/-- Why a request fails: a text of the code itself, or one of the libraries it calls. -/
inductive RpcError where
  | text (message : String)
  /-- `Utf8Error`, for bytes that are no text. -/
  | notUtf8 (bytes : Bytes)
  /-- The error of `rmpv` for a payload that it cannot read. -/
  | decode (data : Bytes)
  /-- Both readers of a payload failed. -/
  | unsupported (msgpack pickle : RpcError)
  /-- The stream broke off, or its other end is gone. -/
  | stream
  deriving DecidableEq

/-- A number in so many bytes, the lowest first. -/
def toLe (width number : Nat) : Bytes := (Msgpack.toBe width number).reverse

/-- The number that bytes hold, the lowest first. -/
def ofLe (digits : Bytes) : Nat := Msgpack.ofBe digits.reverse

/-- A number of 32 bits read as `i32`. -/
def asI32 (number : Nat) : Int := if number < 2 ^ 31 then number else (number : Int) - 2 ^ 32

/-- `value as i32` for a number that fits, as the 32 bits it has. -/
def bitsOfI32 (number : Int) : Nat := (number % 2 ^ 32).toNat

/-- `PickleStackItem`. -/
inductive PickleStackItem where
  | mark
  | value (value : Value)

/-- What one opcode comes to. -/
inductive PickleStep where
  | next (data : Bytes) (stack : List PickleStackItem)
  | stop (value : Value)

/-- `read_pickle_bytes`: so many bytes, and what is behind them. -/
def readPickleBytes (data : Bytes) (length : Nat) : Except RpcError (Bytes × Bytes) :=
  match Msgpack.takeBytes length data with
  | some read => .ok read
  | none => .error (.text "pickle byte payload is truncated")

/-- `read_pickle_u8`, `read_pickle_u16_le` and `read_pickle_u32_le`, by their width. -/
def readPickleLe (data : Bytes) (width : Nat) : Except RpcError (Nat × Bytes) := do
  let (digits, data) ← readPickleBytes data width
  return (ofLe digits, data)

/-- The bytes behind a length of some width. -/
def readPickleCounted (data : Bytes) (width : Nat) : Except RpcError (Bytes × Bytes) := do
  let (length, data) ← readPickleLe data width
  readPickleBytes data length

/-- A text behind a length of some width. -/
def readPickleText (data : Bytes) (width : Nat) : Except RpcError (Value × Bytes) := do
  let (text, data) ← readPickleCounted data width
  match (Value.string text).asStr with
  | some text => return (.string text, data)
  | none => throw (.notUtf8 text)

/-- The items above the last mark, in the order they came, and what is below the mark. -/
def splitAtMark : List PickleStackItem → Option (List PickleStackItem × List PickleStackItem)
  | [] => none
  | .mark :: below => some ([], below)
  | item :: below => (splitAtMark below).map fun split => (split.1 ++ [item], split.2)

/-- The loop of `pickle_set_items` over the items above the mark. -/
def pairItems : List PickleStackItem → Except RpcError (List (Value × Value))
  | [] => .ok []
  | [_] => .error (.text "pickle SETITEMS has odd item count")
  | .mark :: _ :: _ => .error (.text "pickle SETITEMS key is MARK")
  | .value _ :: .mark :: _ => .error (.text "pickle SETITEMS value is MARK")
  | .value key :: .value value :: items => do return (key, value) :: (← pairItems items)

/-- `pickle_set_items`. -/
def pickleSetItems (stack : List PickleStackItem) : Except RpcError (List PickleStackItem) :=
  match splitAtMark stack with
  | none => .error (.text "pickle SETITEMS without MARK")
  | some (items, .value (.map entries) :: below) => do
    return .value (.map (entries ++ (← pairItems items))) :: below
  | some _ => .error (.text "pickle SETITEMS target is not a dict")

/-- `pickle_set_item`. -/
def pickleSetItem : List PickleStackItem → Except RpcError (List PickleStackItem)
  | .value value :: .value key :: .value (.map entries) :: below =>
    .ok (.value (.map (entries ++ [(key, value)])) :: below)
  | .value _ :: .value _ :: _ => .error (.text "pickle SETITEM target is not a dict")
  | .value _ :: _ => .error (.text "pickle SETITEM missing key")
  | _ => .error (.text "pickle SETITEM missing value")

/-- The bytes of an opcode that only describes the pickle. -/
def skipPickleBytes (data : Bytes) (count : Nat) (stack : List PickleStackItem) (message : String) :
    Except RpcError PickleStep :=
  if count ≤ data.length then .ok (.next (data.drop count) stack) else .error (.text message)

/-- One opcode of `read_python_pickle_value`, with the bytes behind it and the stack, its top first. -/
def pickleOp (opcode : UInt8) (data : Bytes) (stack : List PickleStackItem) :
    Except RpcError PickleStep :=
  let push (value : Value) (data : Bytes) : PickleStep := .next data (.value value :: stack)
  match opcode with
  -- PROTO and FRAME.
  | 0x80 => skipPickleBytes data 1 stack "pickle protocol opcode is truncated"
  | 0x95 => skipPickleBytes data 8 stack "pickle frame opcode is truncated"
  -- `}` and `(`.
  | 0x7D => .ok (push (.map []) data)
  | 0x28 => .ok (.next data (.mark :: stack))
  -- MEMOIZE.
  | 0x94 => .ok (.next data stack)
  -- SHORT_BINUNICODE and `X`.
  | 0x8C => do
    let (value, data) ← readPickleText data 1
    return push value data
  | 0x58 => do
    let (value, data) ← readPickleText data 4
    return push value data
  -- `C` and `B`.
  | 0x43 => do
    let (bytes, data) ← readPickleCounted data 1
    return push (.binary bytes) data
  | 0x42 => do
    let (bytes, data) ← readPickleCounted data 4
    return push (.binary bytes) data
  -- `N`, NEWTRUE, NEWFALSE and `]`.
  | 0x4E => .ok (push .nil data)
  | 0x88 => .ok (push (.boolean true) data)
  | 0x89 => .ok (push (.boolean false) data)
  | 0x5D => .ok (push (.array []) data)
  -- `K`, `M` and `J`.
  | 0x4B => do
    let (number, data) ← readPickleLe data 1
    return push (.integer number) data
  | 0x4D => do
    let (number, data) ← readPickleLe data 2
    return push (.integer number) data
  | 0x4A => do
    let (number, data) ← readPickleLe data 4
    return push (.integer (asI32 number)) data
  -- `u` and `s`.
  | 0x75 => do return .next data (← pickleSetItems stack)
  | 0x73 => do return .next data (← pickleSetItem stack)
  -- `.`
  | 0x2E =>
    match stack with
    | .value value :: _ => .ok (.stop value)
    | _ => .error (.text "pickle did not end with a value")
  | opcode => .error (.text ("unsupported pickle opcode 0x" ++ hexEncode [opcode]))

/-- The loop of `read_python_pickle_value`, whose rounds each read at least one byte. -/
def runPickle : (rounds : Nat) → Bytes → List PickleStackItem → Except RpcError Value
  | 0, _, _ | _, [], _ => .error (.text "pickle ended without STOP opcode")
  | rounds + 1, opcode :: data, stack => do
    match ← pickleOp opcode data stack with
    | .next data stack => runPickle rounds data stack
    | .stop value => return value

/-- `read_python_pickle_value`. -/
def readPythonPickleValue (data : Bytes) : Except RpcError Value := runPickle data.length data []

/-- A number in `write_python_pickle_payload`, in the shortest of the forms it has there. -/
def writePickleInteger (number : Int) : Except RpcError Bytes :=
  match (Value.integer number).asU64, (Value.integer number).asI64 with
  | some number, _ =>
    if number < 2 ^ 8 then .ok (0x4B :: toLe 1 number)
    else if number < 2 ^ 16 then .ok (0x4D :: toLe 2 number)
    else if number < 2 ^ 31 then .ok (0x4A :: toLe 4 number)
    else .error (.text "integer response is too large for pickle encoder")
  | none, some number =>
    if -2 ^ 31 ≤ number ∧ number < 2 ^ 31 then .ok (0x4A :: toLe 4 (bitsOfI32 number))
    else .error (.text "integer response is too large for pickle encoder")
  | none, none => .ok []

/-- Bytes behind their length, in one byte or in four, and memoized. -/
def writePickleCounted (short long : UInt8) (bytes : Bytes) : Bytes :=
  (if bytes.length < 2 ^ 8 then short :: toLe 1 bytes.length
    else long :: toLe 4 (bytes.length % 2 ^ 32)) ++ bytes ++ [0x94]

mutual

/-- `write_python_pickle_payload`. -/
def writePicklePayload : Value → Except RpcError Bytes
  | .nil => .ok [0x4E]
  | .boolean false => .ok [0x89]
  | .boolean true => .ok [0x88]
  | .integer number => writePickleInteger number
  | .string text =>
    match (Value.string text).asStr with
    | some text => .ok (writePickleCounted 0x8C 0x58 text)
    | none => .error (.text "invalid string response")
  | .binary bytes => .ok (writePickleCounted 0x43 0x42 bytes)
  | .array [] => .ok [0x5D, 0x94]
  | .array (item :: items) => do
    let first ← writePicklePayload item
    let rest ← writePickleItems items
    return [0x5D, 0x94, 0x28] ++ first ++ rest ++ [0x65]
  | .map [] => .ok [0x7D, 0x94]
  | .map ((key, value) :: entries) => do
    let firstKey ← writePicklePayload key
    let firstValue ← writePicklePayload value
    let rest ← writePickleEntries entries
    return [0x7D, 0x94, 0x28] ++ firstKey ++ firstValue ++ rest ++ [0x75]
  | .f32 _ | .f64 _ | .ext _ _ => .error (.text "unsupported RPC response type")

/-- The items of an array, one after another. -/
def writePickleItems : List Value → Except RpcError Bytes
  | [] => .ok []
  | item :: items => do return (← writePicklePayload item) ++ (← writePickleItems items)

/-- The keys and the values of a map, one after another. -/
def writePickleEntries : List (Value × Value) → Except RpcError Bytes
  | [] => .ok []
  | (key, value) :: entries => do
    let first ← writePicklePayload key
    let second ← writePicklePayload value
    return first ++ second ++ (← writePickleEntries entries)

end

/-- `write_python_pickle_value`. -/
def writePythonPickleValue (value : Value) : Except RpcError Bytes := do
  return [0x80, 0x05] ++ (← writePicklePayload value) ++ [0x2E]

end Reticulum
