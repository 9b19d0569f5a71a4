import ReticulumSdk.Base.MsgpackFormat
import ReticulumSdk.Iface.Ifac
import ReticulumSdk.Iface.Kiss

/-! A radio on a serial line: its configuration, the commands that it is sent, and what is known of it. -/

namespace Reticulum

/-- `RxMessage`: a packet that came in over an interface, and how well it was received. -/
structure RxMessage where
  address : AddressHash
  snr : Option Float32
  rssi : Option Int
  packet : Packet

namespace RNode

open Kiss

/-- `CMD_FREQUENCY`. -/
def CMD_FREQUENCY : UInt8 := 0x01
/-- `CMD_BANDWIDTH`. -/
def CMD_BANDWIDTH : UInt8 := 0x02
/-- `CMD_TXPOWER`. -/
def CMD_TXPOWER : UInt8 := 0x03
/-- `CMD_SF`. -/
def CMD_SF : UInt8 := 0x04
/-- `CMD_CR`. -/
def CMD_CR : UInt8 := 0x05
/-- `CMD_RADIO_STATE`. -/
def CMD_RADIO_STATE : UInt8 := 0x06
/-- `CMD_RADIO_LOCK`. -/
def CMD_RADIO_LOCK : UInt8 := 0x07
/-- `CMD_DETECT`. -/
def CMD_DETECT : UInt8 := 0x08
/-- `CMD_LEAVE`. -/
def CMD_LEAVE : UInt8 := 0x0a
/-- `CMD_ST_ALOCK`. -/
def CMD_ST_ALOCK : UInt8 := 0x0b
/-- `CMD_LT_ALOCK`. -/
def CMD_LT_ALOCK : UInt8 := 0x0c
/-- `CMD_STAT_RX`. -/
def CMD_STAT_RX : UInt8 := 0x21
/-- `CMD_STAT_TX`. -/
def CMD_STAT_TX : UInt8 := 0x22
/-- `CMD_STAT_RSSI`. -/
def CMD_STAT_RSSI : UInt8 := 0x23
/-- `CMD_STAT_SNR`. -/
def CMD_STAT_SNR : UInt8 := 0x24
/-- `CMD_STAT_CHTM`. -/
def CMD_STAT_CHTM : UInt8 := 0x25
/-- `CMD_STAT_PHYPRM`. -/
def CMD_STAT_PHYPRM : UInt8 := 0x26
/-- `CMD_STAT_BAT`. -/
def CMD_STAT_BAT : UInt8 := 0x27
/-- `CMD_STAT_CSMA`. -/
def CMD_STAT_CSMA : UInt8 := 0x28
/-- `CMD_STAT_TEMP`. -/
def CMD_STAT_TEMP : UInt8 := 0x29
/-- `CMD_RANDOM`. -/
def CMD_RANDOM : UInt8 := 0x40
/-- `CMD_PLATFORM`. -/
def CMD_PLATFORM : UInt8 := 0x48
/-- `CMD_MCU`. -/
def CMD_MCU : UInt8 := 0x49
/-- `CMD_FW_VERSION`. -/
def CMD_FW_VERSION : UInt8 := 0x50
/-- `CMD_RESET`. -/
def CMD_RESET : UInt8 := 0x55
/-- `CMD_ERROR`. -/
def CMD_ERROR : UInt8 := 0x90
/-- `DETECT_REQ`. -/
def DETECT_REQ : UInt8 := 0x73
/-- `DETECT_RESP`. -/
def DETECT_RESP : UInt8 := 0x46
/-- `RADIO_STATE_OFF`. -/
def RADIO_STATE_OFF : UInt8 := 0x00
/-- `RADIO_STATE_ON`. -/
def RADIO_STATE_ON : UInt8 := 0x01
/-- `ERROR_INITRADIO`. -/
def ERROR_INITRADIO : UInt8 := 0x01
/-- `ERROR_TXFAILED`. -/
def ERROR_TXFAILED : UInt8 := 0x02
/-- `ERROR_MEMORY_LOW`. -/
def ERROR_MEMORY_LOW : UInt8 := 0x05
/-- `ERROR_MODEM_TIMEOUT`. -/
def ERROR_MODEM_TIMEOUT : UInt8 := 0x06
/-- `PLATFORM_ESP32`. -/
def PLATFORM_ESP32 : UInt8 := 0x80

/-- `REQUIRED_FW_VER_MAJ`. -/
def REQUIRED_FW_VER_MAJ : UInt8 := 1
/-- `REQUIRED_FW_VER_MIN`. -/
def REQUIRED_FW_VER_MIN : UInt8 := 52
/-- `FREQ_MIN`, in Hz. -/
def FREQ_MIN : Nat := 137000000
/-- `FREQ_MAX`. -/
def FREQ_MAX : Nat := 3000000000
/-- `BANDWIDTH_MIN`, in Hz. -/
def BANDWIDTH_MIN : Nat := 7800
/-- `BANDWIDTH_MAX`. -/
def BANDWIDTH_MAX : Nat := 1625000
/-- `TXPOWER_MAX`, in dBm. -/
def TXPOWER_MAX : UInt8 := 37
/-- `SF_MIN`. -/
def SF_MIN : UInt8 := 5
/-- `SF_MAX`. -/
def SF_MAX : UInt8 := 12
/-- `CR_MIN`. -/
def CR_MIN : UInt8 := 5
/-- `CR_MAX`. -/
def CR_MAX : UInt8 := 8
/-- `RSSI_OFFSET`. -/
def RSSI_OFFSET : Int := 157

/-- `RNodeConfig`, less its port. -/
structure RNodeConfig where
  frequency : Nat
  bandwidth : Nat
  txpower : UInt8
  spreadingfactor : UInt8
  codingrate : UInt8
  flowControl : Bool
  airtimeLimitShort : Option Float32
  airtimeLimitLong : Option Float32
  announceCap : Option Float

/-- `RNodeConfigError`. -/
inductive RNodeConfigError where
  | frequency (value : Nat)
  | bandwidth (value : Nat)
  | txPower (value : UInt8)
  | spreadingFactor (value : UInt8)
  | codingRate (value : UInt8)
  | airtimeLimit (name : String) (value : Float32)
  | announceCap (value : Float)

/-- `validate_airtime_limit`, of a limit that may be absent. -/
def validateAirtimeLimit (limit : Option Float32) (name : String) : Except RNodeConfigError Unit :=
  match limit with
  | none => .ok ()
  | some limit => if 0.0 ≤ limit ∧ limit ≤ 100.0 then .ok () else .error (.airtimeLimit name limit)

namespace RNodeConfig

/-- `RNodeConfig::validate`. -/
def validate (config : RNodeConfig) : Except RNodeConfigError Unit :=
  if ¬ (FREQ_MIN ≤ config.frequency ∧ config.frequency ≤ FREQ_MAX) then
    .error (.frequency config.frequency)
  else if ¬ (BANDWIDTH_MIN ≤ config.bandwidth ∧ config.bandwidth ≤ BANDWIDTH_MAX) then
    .error (.bandwidth config.bandwidth)
  else if config.txpower > TXPOWER_MAX then .error (.txPower config.txpower)
  else if ¬ (SF_MIN ≤ config.spreadingfactor ∧ config.spreadingfactor ≤ SF_MAX) then
    .error (.spreadingFactor config.spreadingfactor)
  else if ¬ (CR_MIN ≤ config.codingrate ∧ config.codingrate ≤ CR_MAX) then
    .error (.codingRate config.codingrate)
  else do
    validateAirtimeLimit config.airtimeLimitShort "short-term"
    validateAirtimeLimit config.airtimeLimitLong "long-term"
    match config.announceCap with
    | none => return ()
    | some cap => if 0.0 ≤ cap ∧ cap ≤ 1.0 then return () else .error (.announceCap cap)

end RNodeConfig

/-- `RNodeHardwareError`. -/
structure RNodeHardwareError where
  code : UInt8
  description : String

/-- The reports of `RNodeState` that are only kept. -/
structure RNodeStats where
  rLock : Option UInt8 := none
  rStatRx : Option Nat := none
  rStatTx : Option Nat := none
  rStAlock : Option Float32 := none
  rLtAlock : Option Float32 := none
  rAirtimeShort : Float32 := 0.0
  rAirtimeLong : Float32 := 0.0
  rChannelLoadShort : Float32 := 0.0
  rChannelLoadLong : Float32 := 0.0
  rSymbolTimeMs : Option Float32 := none
  rSymbolRate : Option Nat := none
  rPreambleSymbols : Option Nat := none
  rPreambleTimeMs : Option Nat := none
  rCsmaSlotTimeMs : Option Nat := none
  rCsmaDifsMs : Option Nat := none
  rCsmaCwBand : Option UInt8 := none
  rCsmaCwMin : Option UInt8 := none
  rCsmaCwMax : Option UInt8 := none
  rCurrentRssi : Option Int := none
  rNoiseFloor : Option Int := none
  rInterference : Option Int := none
  rBatteryState : UInt8 := 0
  rBatteryPercent : UInt8 := 0
  rTemperature : Option Int := none
  rRandom : Option UInt8 := none

/-- `RNodeState`: what the radio told of itself, and whether it may be given data. -/
structure RNodeState where
  detected : Bool
  firmwareOk : Bool
  majVersion : UInt8
  minVersion : UInt8
  platform : Option UInt8
  mcu : Option UInt8
  rFrequency : Option Nat
  rBandwidth : Option Nat
  rTxpower : Option UInt8
  rSf : Option UInt8
  rCr : Option UInt8
  rState : Option UInt8
  rStatRssi : Option Int
  rStatSnr : Option Float32
  stats : RNodeStats
  hwErrors : List RNodeHardwareError
  interfaceReady : Bool
  /-- `channel_load`: whether the state has the load at hand that the announce pacer looks at. -/
  channelLoad : Bool

namespace RNodeState

/-- `RNodeState::new`. -/
def new : RNodeState where
  detected := false
  firmwareOk := false
  majVersion := 0
  minVersion := 0
  platform := none
  mcu := none
  rFrequency := none
  rBandwidth := none
  rTxpower := none
  rSf := none
  rCr := none
  rState := none
  rStatRssi := none
  rStatSnr := none
  stats := {}
  hwErrors := []
  interfaceReady := false
  channelLoad := false

/-- How far two frequencies are apart is small enough: `abs_diff` of at most 100 Hz. -/
def near (frequency reported : Nat) : Bool := frequency ≤ reported + 100 ∧ reported ≤ frequency + 100

/-- `RNodeState::radio_matches`. -/
def radioMatches (state : RNodeState) (config : RNodeConfig) : Bool :=
  state.rFrequency.any (near config.frequency) && state.rBandwidth = some config.bandwidth &&
    state.rTxpower = some config.txpower && state.rSf = some config.spreadingfactor &&
    state.rCr = some config.codingrate && state.rState = some RADIO_STATE_ON

end RNodeState

/-- `read_u16` and `read_u32` at the front of some bytes, by their width. -/
def readBe (width : Nat) (data : Bytes) : Nat := Msgpack.ofBe (data.take width)

/-- A number of 16 bits as a value in hundredths. -/
def hundredths (number : Nat) : Float32 := Float32.ofNat number / 100.0

/-- The value of `CMD_STAT_TEMP` in degrees, where it is one. -/
def temperature (temp : UInt8) : Option Int :=
  let temp := (temp.toNat : Int) - 120
  if -30 ≤ temp ∧ temp ≤ 90 then some temp else none

/-- `update_command_state` for `CMD_STAT_CHTM`, less what it does to the load. -/
def handleChannelTime (stats : RNodeStats) (payload : Bytes) : RNodeStats :=
  { stats with
    rAirtimeShort := hundredths (readBe 2 payload)
    rAirtimeLong := hundredths (readBe 2 (payload.drop 2))
    rChannelLoadShort := hundredths (readBe 2 (payload.drop 4))
    rChannelLoadLong := hundredths (readBe 2 (payload.drop 6))
    rCurrentRssi := some ((payload.getD 8 0).toNat - RSSI_OFFSET)
    rNoiseFloor := some ((payload.getD 9 0).toNat - RSSI_OFFSET)
    rInterference :=
      if payload.getD 10 0 = 0xff then none else some ((payload.getD 10 0).toNat - RSSI_OFFSET) }

/-- `update_command_state` for the commands whose reports are only kept. -/
def updateStats (stats : RNodeStats) (frame : KissFrame) : RNodeStats :=
  let payload := frame.payload
  let first := payload.head?
  let length := payload.length
  if frame.command = CMD_RADIO_LOCK then { stats with rLock := first }
  else if frame.command = CMD_STAT_RX ∧ length ≥ 4 then { stats with rStatRx := some (readBe 4 payload) }
  else if frame.command = CMD_STAT_TX ∧ length ≥ 4 then { stats with rStatTx := some (readBe 4 payload) }
  else if frame.command = CMD_ST_ALOCK ∧ length ≥ 2 then
    { stats with rStAlock := some (hundredths (readBe 2 payload)) }
  else if frame.command = CMD_LT_ALOCK ∧ length ≥ 2 then
    { stats with rLtAlock := some (hundredths (readBe 2 payload)) }
  else if frame.command = CMD_STAT_PHYPRM ∧ length ≥ 12 then
    { stats with
      rSymbolTimeMs := some (Float32.ofNat (readBe 2 payload) / 1000.0)
      rSymbolRate := some (readBe 2 (payload.drop 2))
      rPreambleSymbols := some (readBe 2 (payload.drop 4))
      rPreambleTimeMs := some (readBe 2 (payload.drop 6))
      rCsmaSlotTimeMs := some (readBe 2 (payload.drop 8))
      rCsmaDifsMs := some (readBe 2 (payload.drop 10)) }
  else if frame.command = CMD_STAT_CSMA ∧ length ≥ 3 then
    { stats with
      rCsmaCwBand := some (payload.getD 0 0)
      rCsmaCwMin := some (payload.getD 1 0)
      rCsmaCwMax := some (payload.getD 2 0) }
  else if frame.command = CMD_STAT_BAT ∧ length ≥ 2 then
    { stats with rBatteryState := payload.getD 0 0, rBatteryPercent := min (payload.getD 1 0) 100 }
  else if frame.command = CMD_STAT_TEMP then { stats with rTemperature := first.bind temperature }
  else if frame.command = CMD_RANDOM then { stats with rRandom := first }
  else stats

/-- `update_command_state` for `CMD_ERROR`: whether the read loop goes on, and the errors so far. -/
def handleError (errors : List RNodeHardwareError) (payload : Bytes) : Bool × List RNodeHardwareError :=
  match payload.head? with
  | none => (true, errors)
  | some code =>
    if code = ERROR_INITRADIO then (false, errors)
    else if code = ERROR_TXFAILED then (false, errors)
    else if code = ERROR_MEMORY_LOW then
      (true, errors ++ [⟨code, "Memory exhausted on connected device"⟩])
    else if code = ERROR_MODEM_TIMEOUT then
      (true, errors ++ [⟨code, "Modem communication timed out on connected device"⟩])
    else (false, errors)

/-- Whether a version of the firmware is recent enough. -/
def firmwareSupported (major minor : UInt8) : Bool :=
  major > REQUIRED_FW_VER_MAJ ∨ major = REQUIRED_FW_VER_MAJ ∧ minor ≥ REQUIRED_FW_VER_MIN

/-- `update_command_state`: the state after a frame. -/
def updateCommandState (state : RNodeState) (frame : KissFrame) : RNodeState :=
  let payload := frame.payload
  let first := payload.head?
  let length := payload.length
  if frame.command = CMD_DETECT then { state with detected := first = some DETECT_RESP }
  else if frame.command = CMD_FW_VERSION ∧ length ≥ 2 then
    let major := payload.getD 0 0
    let minor := payload.getD 1 0
    { state with majVersion := major, minVersion := minor, firmwareOk := firmwareSupported major minor }
  else if frame.command = CMD_FREQUENCY ∧ length ≥ 4 then
    { state with rFrequency := some (readBe 4 payload) }
  else if frame.command = CMD_BANDWIDTH ∧ length ≥ 4 then
    { state with rBandwidth := some (readBe 4 payload) }
  else if frame.command = CMD_TXPOWER then { state with rTxpower := first }
  else if frame.command = CMD_SF then { state with rSf := first }
  else if frame.command = CMD_CR then { state with rCr := first }
  else if frame.command = CMD_RADIO_STATE then
    -- A radio that is on takes data.
    { state with
      rState := first
      interfaceReady := if first = some RADIO_STATE_ON then true else state.interfaceReady }
  else if frame.command = CMD_STAT_RSSI then
    { state with rStatRssi := first.map fun rssi => (rssi.toNat : Int) - RSSI_OFFSET }
  else if frame.command = CMD_STAT_SNR then
    { state with rStatSnr := first.map fun snr => Float32.ofInt snr.toInt8.toInt * 0.25 }
  else if frame.command = CMD_STAT_CHTM ∧ length ≥ 11 then
    { state with stats := handleChannelTime state.stats payload }
  else if frame.command = CMD_PLATFORM then { state with platform := first }
  else if frame.command = CMD_MCU then { state with mcu := first }
  else if frame.command = CMD_ERROR then { state with hwErrors := (handleError state.hwErrors payload).2 }
  else { state with stats := updateStats state.stats frame }

/-- `update_command_state`: whether the read loop goes on after a frame. -/
def keepRunning (state : RNodeState) (frame : KissFrame) : Bool :=
  if frame.command = CMD_ERROR then (handleError state.hwErrors frame.payload).1
  else if frame.command = CMD_RESET then
    ¬ (state.platform = some PLATFORM_ESP32 ∧ frame.payload.head? = some 0xf8)
  else true

/-- `update_command_state`: the load of the channel after a frame, which it only tells to a load at hand. -/
def updateLoad (state : RNodeState) (load : Float) (frame : KissFrame) : Float :=
  if frame.command = CMD_STAT_CHTM ∧ frame.payload.length ≥ 11 ∧ state.channelLoad then
    (hundredths (readBe 2 (frame.payload.drop 6))).toFloat
  else load

/-- What the two loops of a connection share, with what went out on `rx_channel`. -/
structure Shared where
  state : RNodeState
  /-- The load of the channel that the announce pacer of the interface looks at. -/
  load : Float
  rxChannel : List RxMessage

/-- `handle_frame`: whether the read loop goes on, and what it leaves. -/
def handleFrame (hkdf : HkdfSha256) (ifacConfig : Option IfacConfig) (address : AddressHash)
    (shared : Shared) (frame : KissFrame) : Bool × Shared :=
  if frame.command = CMD_DATA then
    if frame.payload.length > RNODE_HW_MTU then (true, shared)
    else
      match decodeRx hkdf ifacConfig frame.payload with
      | .error _ => (true, shared)
      | .ok packet =>
        let message := ⟨address, shared.state.rStatSnr, shared.state.rStatRssi, packet⟩
        (true, { shared with rxChannel := shared.rxChannel ++ [message] })
  else if frame.command = CMD_READY then
    (true, { shared with state := { shared.state with interfaceReady := true } })
  else
    (keepRunning shared.state frame, { shared with
      state := updateCommandState shared.state frame
      load := updateLoad shared.state shared.load frame })

/-- `detect`: the commands by which a radio is asked what it is. -/
def detect : List KissFrame :=
  [⟨CMD_DETECT, [DETECT_REQ]⟩, ⟨CMD_FW_VERSION, [0x00]⟩, ⟨CMD_PLATFORM, [0x00]⟩, ⟨CMD_MCU, [0x00]⟩]

/-- A number within two others, as `clamp` gives it. -/
def clampF32 (number low high : Float32) : Float32 :=
  if number < low then low else if number > high then high else number

/-- The command of `write_airtime_limit` for a limit, if there is one. -/
def airtimeLimitFrame (command : UInt8) (limit : Option Float32) : List KissFrame :=
  match limit with
  | none => []
  | some limit =>
    let value := (clampF32 (limit * 100.0).round 0.0 (Float32.ofNat 65535)).toUInt16
    [⟨command, Msgpack.toBe 2 value.toNat⟩]

/-- `init_radio`: the commands by which a radio is configured and turned on. -/
def initRadio (config : RNodeConfig) : List KissFrame :=
  [⟨CMD_RADIO_STATE, [RADIO_STATE_OFF]⟩,
    -- The frequency is cast to 32 bits.
    ⟨CMD_FREQUENCY, Msgpack.toBe 4 (config.frequency % 2 ^ 32)⟩,
    ⟨CMD_BANDWIDTH, Msgpack.toBe 4 config.bandwidth⟩,
    ⟨CMD_TXPOWER, [config.txpower]⟩, ⟨CMD_SF, [config.spreadingfactor]⟩, ⟨CMD_CR, [config.codingrate]⟩] ++
  airtimeLimitFrame CMD_ST_ALOCK config.airtimeLimitShort ++
  airtimeLimitFrame CMD_LT_ALOCK config.airtimeLimitLong ++ [⟨CMD_RADIO_STATE, [RADIO_STATE_ON]⟩]

/-- `detach`: the commands by which a radio is turned off and left. -/
def detach : List KissFrame := [⟨CMD_RADIO_STATE, [RADIO_STATE_OFF]⟩, ⟨CMD_LEAVE, [0xff]⟩]

/-- The bytes of some commands, as `write_frame` writes one behind the other. -/
def bytesOf (frames : List KissFrame) : Bytes :=
  frames.flatMap fun frame => encodeFrame frame.command frame.payload

end RNode

end Reticulum
