import ReticulumSdk.Iface.IfacLaws
import ReticulumSdk.Iface.RNodeConfigured

/-! A radio that answers and echoes what it is told is used, and one that is used has answered so. -/

namespace Reticulum.RNode

open Kiss

variable {config : RNodeConfig} {major minor platform mcu : UInt8}

/-- What a radio answers to the commands of `detect`. -/
def answer (major minor platform mcu : UInt8) : List KissFrame :=
  [⟨CMD_DETECT, [DETECT_RESP]⟩, ⟨CMD_FW_VERSION, [major, minor]⟩, ⟨CMD_PLATFORM, [platform]⟩, ⟨CMD_MCU, [mcu]⟩]

/-- A short frame of most commands is plain. -/
theorem plain_short {command : UInt8} {payload : Bytes}
    (other : command ∉ [FEND, CMD_UNKNOWN, CMD_ERROR, CMD_RESET]) (short : payload.length ≤ 4) :
    Connection.Plain ⟨command, payload⟩ := by
  simp only [List.mem_cons, List.not_mem_nil, or_false, not_or] at other
  obtain ⟨plain, known, error, reset⟩ := other
  exact ⟨plain, known, short.trans (by decide), error, reset⟩

/-- The frames of an answer are plain. -/
theorem answer_plain : ∀ frame ∈ answer major minor platform mcu, Connection.Plain frame := by
  intro frame member
  simp only [answer, List.mem_cons, List.not_mem_nil, or_false] at member
  rcases member with rfl | rfl | rfl | rfl <;>
  · exact plain_short (by decide) (by simp)

open Connection

variable {hkdf : HkdfSha256} {ifacConfig : Option IfacConfig} {conn : Connection}

/-- The turns in which a radio is asked, answers, is configured, echoes that, and is powered up. -/
def handshake (answers echoes : List Bytes) (late late' : Bool) : List Turn :=
  [.detects none] ++ answers.map .reads ++ [.polls late, .checks none] ++ echoes.map .reads ++
    [.polls late', .powersUp]

/-- A connection to a radio that has just been opened. -/
def fresh : Connection where
  config := ⟨915000000, 125000, 22, 7, 5, true, none, none, none⟩
  address := ⟨List.replicate 16 0, rfl⟩
  shared := ⟨.new, 0.0, []⟩
  decoder := .new
  reading := true
  stop := false
  cancelled := false
  stage := .waking
  tx := .absent
  packetQueue := []

/-- It has just begun. -/
theorem fresh_begun : fresh.Begun := ⟨rfl, rfl, rfl, rfl⟩

/--
A radio is sent data only over a connection on which it was first sent the commands that ask and configure
it, whole and before anything else, on which it answered that it is a radio, next told a version that is
supported, and next told of each parameter last that it is what is configured.
-/
theorem radio_sends_once_validated (hkdf : HkdfSha256) (ifacConfig : Option IfacConfig) (conn : Connection)
    (begun : conn.Begun) (turns : List Turn) (turn : Turn)
    (sends : ((conn.after hkdf ifacConfig turns).turn hkdf ifacConfig turn).1.sent ≠ []) :
    configures conn.config <+: conn.wroteOver hkdf ifacConfig turns ∧
      Validated conn.config (conn.heardOver hkdf ifacConfig turns) :=
  -- Only the loop that sends does, and it is not started before.
  begun.sends_validated (sent_running sends)

/-- A packet for it. -/
def outbound : Packet where
  header := ⟨.opened, .type1, .unset, .broadcast, .plain, .data, 0⟩
  destination := ⟨List.replicate 16 7, rfl⟩
  transport := none
  context := .none
  data := [0xc0, 0xdb]

/-- It is sent to the radio that echoed its configuration. -/
theorem radio_sends_once_validated_fresh :
    let turns := handshake [bytesOf (answer 1 52 0x80 0x81)] [bytesOf (initRadio fresh.config)] false false ++
      [.loops none, .notified, .loops none]
    configures fresh.config <+: fresh.wroteOver .sample none turns ∧
      Validated fresh.config (fresh.heardOver .sample none turns) :=
  radio_sends_once_validated .sample none fresh fresh_begun _ (.receives outbound none) (by decide +kernel)

end Reticulum.RNode
