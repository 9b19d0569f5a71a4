import ReticulumSdk.Base.Hkdf
import ReticulumSdk.Rpc.Frames
import ReticulumSdk.Transport.Blackhole

/-! A connection to the control port: both ends prove that they know the key, then one request is served. -/

namespace Reticulum

/-- `PY_CONN_CHALLENGE`. -/
def PY_CONN_CHALLENGE : Bytes := keyText "#CHALLENGE#"

/-- `PY_CONN_WELCOME`. -/
def PY_CONN_WELCOME : Bytes := keyText "#WELCOME#"

/-- `PY_CONN_FAILURE`. -/
def PY_CONN_FAILURE : Bytes := keyText "#FAILURE#"

/-- `PY_CONN_AUTH_MAX_FRAME`. -/
def PY_CONN_AUTH_MAX_FRAME : Nat := 256

/-- The largest request. -/
def maxRequest : Nat := 64 * 1024

/-- The name of the digest in front of it. -/
def digestName : Bytes := keyText "\x7bsha256\x7d"

/-- `rpc_challenge`, with the forty bytes of the generator. -/
def rpcChallenge (random : Bytes) : Bytes := PY_CONN_CHALLENGE ++ digestName ++ random

/-- `rpc_hmac_response`. -/
def rpcHmacResponse (authKey message : Bytes) : Bytes := digestName ++ Sha256.hmac authKey message

/-- `rpc_response_is_authenticated`. -/
def rpcResponseIsAuthenticated (challenge response : Bytes) (authKey : Option Bytes) : Bool :=
  match authKey with
  | none => true
  | some authKey =>
    let expected := rpcHmacResponse authKey (challenge.drop PY_CONN_CHALLENGE.length)
    response = expected ∨ response = expected.drop digestName.length

/-- How much of the stream can be seen when the peer's challenge is waited for. -/
inductive Readiness where
  /-- Nothing came in time. -/
  | late
  | failed
  | visible (count : Nat)

/-- The connection of a client, and the node that it reaches. -/
structure RpcConnection (ν : Type) where
  /-- What is still to be read. -/
  incoming : Bytes
  /-- The frames that still go out before the connection breaks. -/
  room : Nat
  written : List Bytes
  node : ν

/-- A part of the exchange, which leaves the connection also where it fails. -/
abbrev Rpc (ν α : Type) := EStateM RpcError (RpcConnection ν) α

/-- `rmpv`: a value off the front of some bytes. -/
abbrev ValueReader := Bytes → Option (Value × Bytes)

/-- `read_msgpack_value`. -/
def readMsgpackValue (readValue : ValueReader) (data : Bytes) : Except RpcError Value :=
  match readValue data with
  | none => .error (.decode data)
  | some (value, []) => .ok value
  | some (_, _ :: _) => .error (.text "MessagePack payload has trailing bytes")

/-- `read_rpc_value`. -/
def readRpcValue (readValue : ValueReader) (data : Bytes) : Except RpcError Value :=
  match readMsgpackValue readValue data with
  | .ok value => .ok value
  | .error msgpack =>
    match readPythonPickleValue data with
    | .ok value => .ok value
    | .error pickle => .error (.unsupported msgpack pickle)

/-- What a request asks for: to listen, to find a path, or an answer at once. -/
inductive RpcTask where
  | listen (destination : Option AddressHash)
  | requestPath (map : List (Value × Value))
  | request (request : Value)

/-- The destination that a listener asks for. -/
def listenFilter (config : Value) : Option AddressHash := do
  let destination ← rpcMapValue (← config.asMap) "destination"
  let bytes ← destination.asSlice
  if length : bytes.length = ADDRESS_HASH_SIZE then some ⟨bytes, length⟩ else none

/-- The branches of `handle_rpc_client` on a request. -/
def rpcTask (request : Value) : RpcTask :=
  match request.asMap with
  | none => .request request
  | some map =>
    match rpcMapValue map "listen" with
    | some config => .listen (listenFilter config)
    | none =>
      if rpcMapValue map "get" >>= Value.asStr = some (keyText "request_path") then .requestPath map
      else .request request

section

variable {ν : Type}

/-- `write_py_connection_frame`. -/
def writePyConnectionFrame (data : Bytes) : Rpc ν Unit := fun connection =>
  if ¬ FrameFits data then .error (.text "frame is too large") connection
  else if connection.room = 0 then .error .stream connection
  else .ok () { connection with
    room := connection.room - 1
    written := connection.written ++ [data] }

/-- `read_py_connection_frame` on a connection. -/
def readFrame (maxSize : Nat) : Rpc ν Bytes := fun connection =>
  match readPyConnectionFrame maxSize connection.incoming with
  | .ok (data, rest) => .ok data { connection with incoming := rest }
  | .error fault => .error fault connection

/-- `read_py_connection_frame_if_ready`. -/
def readFrameIfReady (maxSize : Nat) (readiness : Readiness) : Rpc ν (Option Bytes) := fun connection =>
  match readiness with
  | .late => .ok none connection
  | .failed => .error .stream connection
  | .visible count =>
    let size := asI32 (Msgpack.ofBe (connection.incoming.take 4))
    -- A header that is not there yet, or that is none of a short frame, is left to the next reader.
    if min count connection.incoming.length < 4 ∨ ¬ (0 ≤ size ∧ size ≤ maxSize) then .ok none connection
    else match readFrame maxSize connection with
      | .ok data connection => .ok (some data) connection
      | .error fault connection => .error fault connection

/-- The welcome that `rpc_answer_peer_challenge` waits for. -/
def awaitWelcome : Rpc ν Unit := do
  let welcome ← readFrame PY_CONN_AUTH_MAX_FRAME
  if welcome = PY_CONN_WELCOME then return
  else if welcome = PY_CONN_FAILURE then throw (.text "peer rejected mutual authentication digest")
  else throw (.text s!"expected mutual authentication welcome, got {welcome.length} bytes")

/-- `rpc_answer_peer_challenge`. -/
def rpcAnswerPeerChallenge (authKey : Option Bytes) (readiness : Readiness) : Rpc ν Unit := do
  match ← readFrameIfReady PY_CONN_AUTH_MAX_FRAME readiness with
  | none => return
  | some challenge =>
    if PY_CONN_CHALLENGE <+: challenge then
      match authKey with
      | none => throw (.text "peer requested mutual authentication, but no rpc_key is configured")
      | some authKey =>
        writePyConnectionFrame (rpcHmacResponse authKey (challenge.drop PY_CONN_CHALLENGE.length))
        awaitWelcome
    else
      let first := hexEncode [challenge.headD 0]
      throw (.text s!"expected peer challenge, got {challenge.length} bytes starting with {first}")

/-- `rpc_authenticate`. -/
def rpcAuthenticate (authKey : Option Bytes) (random : Bytes) (readiness : Readiness) : Rpc ν Unit := do
  let challenge := rpcChallenge random
  writePyConnectionFrame challenge
  let response ← readFrame PY_CONN_AUTH_MAX_FRAME
  if rpcResponseIsAuthenticated challenge response authKey then
    writePyConnectionFrame PY_CONN_WELCOME
    rpcAnswerPeerChallenge authKey readiness
  else
    tryCatch (writePyConnectionFrame PY_CONN_FAILURE) fun _ => return
    throw (.text "authentication failed")

/-- The frames of an answer, one after another. -/
def writeFrames : List Bytes → Rpc ν Unit
  | [] => return
  | data :: others => do
    writePyConnectionFrame data
    writeFrames others

/-- A task is served under the lock of the node, and what it answers is sent. -/
def serveTask (serve : RpcTask → ν → List Bytes × ν) (task : RpcTask) : Rpc ν Unit := do
  let connection ← get
  let (answer, node) := serve task connection.node
  set { connection with node := node }
  writeFrames answer

/-- `handle_rpc_client`, for what the node does with a task. -/
def handleRpcClient (readValue : ValueReader) (serve : RpcTask → ν → List Bytes × ν)
    (authKey : Option Bytes) (random : Bytes) (readiness : Readiness) : Rpc ν Unit := do
  rpcAuthenticate authKey random readiness
  let request ← readFrame maxRequest
  match readRpcValue readValue request with
  | .ok value => serveTask serve (rpcTask value)
  | .error fault => throw fault

end

end Reticulum
