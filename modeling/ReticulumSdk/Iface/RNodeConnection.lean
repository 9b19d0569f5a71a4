import ReticulumSdk.Iface.RNode

/-! One connection to a radio: how it is configured, the loop that reads from it and the loop that sends. -/

namespace Reticulum.RNode

open Kiss

/-- How far the configuration of a connection has come. -/
inductive Stage where
  /-- `configure_device` has reset the state, and the radio has two seconds to wake up. -/
  | waking
  /-- `wait_for` looks for the answer of the radio. -/
  | detecting
  | detected
  /-- `wait_for` looks for the configuration of the radio. -/
  | validating
  | validated
  /-- `configure_device` succeeded, and `tx_loop` was started. -/
  | configured
  | failed
  | detached
  deriving DecidableEq

/-- Where `tx_loop` is. -/
inductive TxStage where
  | absent
  /-- At its head. -/
  | looping
  /-- In its `select!`. -/
  | selecting
  | ended
  deriving DecidableEq

/-- One connection of `RNodeInterface::spawn`, from `configure_device` on. -/
structure Connection where
  config : RNodeConfig
  address : AddressHash
  shared : Shared
  decoder : KissDecoder
  /-- Whether `read_loop` goes on. -/
  reading : Bool
  stop : Bool
  cancelled : Bool
  stage : Stage
  tx : TxStage
  packetQueue : List Packet

/-- What a task does next. A write may break off after some bytes, at `cut`. -/
inductive Turn where
  | cancels
  /-- `read_loop` reads some bytes. -/
  | reads (chunk : Bytes)
  /-- `read_loop` finds the port closed or broken. -/
  | readFails
  /-- `READ_TIMEOUT` has passed. -/
  | readIdles
  | readStops
  /-- The radio had its time to wake up. -/
  | detects (cut : Option Nat)
  /-- A round of `wait_for`, and whether its time is over. -/
  | polls (expired : Bool)
  /-- The version is looked at. -/
  | checks (cut : Option Nat)
  | powersUp
  /-- The head of `tx_loop`. -/
  | loops (cut : Option Nat)
  /-- A message comes in the `select!` of `tx_loop`. -/
  | receives (packet : Packet) (cut : Option Nat)
  | notified
  | ticks (cut : Option Nat)
  | txStops
  | detaches (cut : Option Nat)

/-- What a turn does to the world: the frames it heard, what it wrote, and the packets it sent and gave up. -/
structure Effect where
  heard : List KissFrame := []
  wrote : Bytes := []
  sent : List Packet := []
  refused : List Packet := []

/-- `write_all` on a line that may break: what got out, and whether all did. -/
def writeAll (bytes : Bytes) (cut : Option Nat) : Bytes × Bool :=
  match cut with
  | none => (bytes, true)
  | some length => (bytes.take length, false)

namespace Connection

variable (hkdf : HkdfSha256) (ifacConfig : Option IfacConfig)

/-- `read_loop`, the bytes of one read: the frames that were handled, of which the last may stop it. -/
def readBytes (conn : Connection) : Bytes → List KissFrame × Connection
  | [] => ([], conn)
  | byte :: rest =>
    match conn.decoder.push byte with
    | (none, decoder) => readBytes { conn with decoder := decoder } rest
    | (some frame, decoder) =>
      let (goesOn, shared) := handleFrame hkdf ifacConfig conn.address conn.shared frame
      let conn := { conn with decoder := decoder, shared := shared }
      if goesOn then
        let (frames, final) := readBytes conn rest
        (frame :: frames, final)
      else ([frame], { conn with stop := true })

/-- `configure_device` failed. -/
def fail (conn : Connection) : Connection := { conn with stage := .failed, stop := true }

/-- A write of `configure_device`, and how far it is after it. -/
def writes (conn : Connection) (frames : List KissFrame) (cut : Option Nat) (stage : Stage) :
    Effect × Connection :=
  let (wrote, whole) := writeAll (bytesOf frames) cut
  ({ wrote := wrote }, if whole then { conn with stage := stage } else conn.fail)

/-- Whether `interface_ready` is set. -/
def ready (conn : Connection) : Bool := conn.shared.state.interfaceReady

/-- `send_packet`, and where `tx_loop` is after it: no data is written before the radio is marked as busy. -/
def sendPacket (conn : Connection) (packet : Packet) (cut : Option Nat) : Effect × Connection :=
  match encodeTx hkdf ifacConfig packet RNODE_HW_MTU with
  | .error _ => ({ refused := [packet] }, { conn with tx := .looping })
  | .ok data =>
    if data.length > RNODE_HW_MTU then ({ refused := [packet] }, { conn with tx := .looping })
    else
      let state := conn.shared.state
      let busy := { state with interfaceReady := if conn.config.flowControl then false else state.interfaceReady }
      let conn := { conn with shared := { conn.shared with state := busy } }
      let (wrote, whole) := writeAll (encodeFrame CMD_DATA data) cut
      ({ wrote := wrote, sent := [packet] },
        if whole then { conn with tx := .looping } else { conn with stop := true, tx := .ended })

/-- The head of `tx_loop`. -/
def loopHead (conn : Connection) (cut : Option Nat) : Effect × Connection :=
  if conn.stop then ({}, { conn with tx := .ended })
  else if conn.config.flowControl ∧ conn.ready then
    match conn.packetQueue with
    | [] => ({}, { conn with tx := .selecting })
    | packet :: rest => sendPacket hkdf ifacConfig { conn with packetQueue := rest } packet cut
  else ({}, { conn with tx := .selecting })

/-- A message in the `select!` of `tx_loop`. -/
def receive (conn : Connection) (packet : Packet) (cut : Option Nat) : Effect × Connection :=
  if conn.config.flowControl ∧ ¬ conn.ready then
    ({}, { conn with packetQueue := conn.packetQueue ++ [packet], tx := .looping })
  else sendPacket hkdf ifacConfig conn packet cut

/-- A round of `wait_for`. -/
def poll (conn : Connection) (expired : Bool) : Connection :=
  match conn.stage with
  | .detecting =>
    if conn.shared.state.detected then { conn with stage := .detected }
    else if expired then conn.fail else conn
  | .validating =>
    if conn.shared.state.radioMatches conn.config then { conn with stage := .validated }
    else if expired then conn.fail else conn
  | _ => conn

/-- A turn of a task, if it is where it takes such a turn: what comes of it, and the connection after it. -/
def turn (conn : Connection) : Turn → Effect × Connection
  | .cancels => ({}, { conn with cancelled := true })
  | .reads chunk =>
    if conn.reading then
      let (frames, conn) := conn.readBytes hkdf ifacConfig chunk
      ({ heard := frames }, conn)
    else ({}, conn)
  | .readFails => ({}, if conn.reading then { conn with reading := false, stop := true } else conn)
  | .readIdles => ({}, if conn.reading then { conn with decoder := .new } else conn)
  | .readStops =>
    ({}, if conn.reading ∧ (conn.cancelled ∨ conn.stop) then { conn with reading := false } else conn)
  | .detects cut =>
    if conn.stage = .waking then conn.writes detect cut .detecting else ({}, conn)
  | .polls expired => ({}, conn.poll expired)
  | .checks cut =>
    if conn.stage = .detected then
      if conn.shared.state.firmwareOk then conn.writes (initRadio conn.config) cut .validating
      else ({}, conn.fail)
    else ({}, conn)
  | .powersUp =>
    ({}, if conn.stage = .validated then
        let ready := { conn.shared.state with interfaceReady := true }
        { conn with shared := { conn.shared with state := ready }, stage := .configured, tx := .looping }
      else conn)
  | .loops cut => if conn.tx = .looping then conn.loopHead hkdf ifacConfig cut else ({}, conn)
  | .receives packet cut =>
    if conn.tx = .selecting then conn.receive hkdf ifacConfig packet cut else ({}, conn)
  | .notified =>
    ({}, if conn.tx = .selecting ∧ conn.config.flowControl ∧ conn.packetQueue ≠ [] then
        { conn with tx := .looping }
      else conn)
  | .ticks cut =>
    -- An error of this write is ignored.
    if conn.tx = .selecting then
      ({ wrote := (writeAll (encodeFrame CMD_STAT_CHTM []) cut).1 }, { conn with tx := .looping })
    else ({}, conn)
  | .txStops =>
    ({}, if conn.tx = .selecting ∧ (conn.cancelled ∨ conn.stop) then { conn with tx := .ended } else conn)
  | .detaches cut =>
    -- One of the two loops ended, or the interface is cancelled.
    if conn.stage = .configured ∧ (¬ conn.reading ∨ conn.tx = .ended ∨ conn.cancelled) then
      ({ wrote := (writeAll (bytesOf detach) cut).1 },
        { conn with stage := .detached, stop := conn.stop || conn.cancelled })
    else ({}, conn)

/-- The connection after a turn. -/
def next (conn : Connection) (turn : Turn) : Connection := (conn.turn hkdf ifacConfig turn).2

/-- The connection after some turns. -/
def after (conn : Connection) (turns : List Turn) : Connection := turns.foldl (next hkdf ifacConfig) conn

/-- `configure_device` has just reset the state, whatever was read before it did. -/
structure Begun (conn : Connection) : Prop where
  stage : conn.stage = .waking
  state : conn.shared.state = .new
  tx : conn.tx = .absent
  packetQueue : conn.packetQueue = []

end Connection

end Reticulum.RNode
