import ReticulumSdk.Base.Prefixed
import ReticulumSdk.Rpc.Pickle

/-! The frames of a connection as Python's `multiprocessing` sends them: a length, then so many bytes. -/

namespace Reticulum

/-- `read_exact` on a stream that holds what will still arrive. -/
def readExact (count : Nat) (stream : Bytes) : Except RpcError (Bytes × Bytes) :=
  match Msgpack.takeBytes count stream with
  | some read => .ok read
  | none => .error .stream

/-- The length in a header of `read_py_connection_frame`, which `-1` puts into eight more bytes. -/
def readFrameLength (stream : Bytes) : Except RpcError (Nat × Bytes) := do
  let (header, stream) ← readExact 4 stream
  let size := asI32 (Msgpack.ofBe header)
  if size = -1 then do
    let (longHeader, stream) ← readExact 8 stream
    return (Msgpack.ofBe longHeader, stream)
  else if 0 ≤ size then return (size.toNat, stream)
  else throw (.text "invalid frame length")

/-- `read_py_connection_frame`, with what is left of the stream. -/
def readPyConnectionFrame (maxSize : Nat) (stream : Bytes) : Except RpcError (Bytes × Bytes) := do
  let (size, stream) ← readFrameLength stream
  if maxSize < size then throw (.text s!"frame length {size} exceeds maximum {maxSize}")
  readExact size stream

/-- The data that `write_py_connection_frame` sends; its length has to fit an `i32`. -/
def FrameFits (data : Bytes) : Prop := data.length < 2 ^ 31

instance (data : Bytes) : Decidable (FrameFits data) := inferInstanceAs (Decidable (_ < _))

end Reticulum
