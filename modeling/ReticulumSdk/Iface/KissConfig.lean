import ReticulumSdk.Iface.Kiss

/-! The parameters that a terminal node controller is told, which are not escaped. -/

namespace Reticulum.Kiss

/-- `CMD_TXDELAY`. -/
def CMD_TXDELAY : UInt8 := 0x01
/-- `CMD_P`. -/
def CMD_P : UInt8 := 0x02
/-- `CMD_SLOTTIME`. -/
def CMD_SLOTTIME : UInt8 := 0x03
/-- `CMD_TXTAIL`. -/
def CMD_TXTAIL : UInt8 := 0x04

/-- `scale_10ms`. -/
def scale10ms (valueMs : UInt16) : UInt8 := (min (valueMs / 10) 255).toUInt8

/-- What `configure_device` looks at of a `KissInterface`, whose times are in milliseconds. -/
structure KissInterface where
  preamble : UInt16
  txtail : UInt16
  persistence : UInt8
  slottime : UInt16

/-- `write_command`. -/
def writeCommand (command : UInt8) (data : Bytes) : Bytes := FEND :: command :: (data ++ [FEND])

namespace KissInterface

/-- The commands of `configure_device`, each with the one byte that it carries. -/
def commands (config : KissInterface) : List (UInt8 × UInt8) :=
  [(CMD_TXDELAY, scale10ms config.preamble), (CMD_TXTAIL, scale10ms config.txtail),
    (CMD_P, config.persistence), (CMD_SLOTTIME, scale10ms config.slottime), (CMD_READY, 0x01)]

/-- `configure_device`: the bytes that it writes. -/
def configureDevice (config : KissInterface) : Bytes :=
  config.commands.flatMap fun command => writeCommand command.1 [command.2]

/-- The frames that it means. -/
def frames (config : KissInterface) : List RNode.KissFrame :=
  config.commands.map fun command => ⟨command.1, [command.2]⟩

end KissInterface

/-- A byte that has to be escaped. -/
def Special (byte : UInt8) : Prop := byte = FEND ∨ byte = FESC

instance : DecidablePred Special := fun _ => inferInstanceAs (Decidable (_ ∨ _))

/-- What is read of a command with one byte, where nothing is escaped: a byte that had to be is lost. -/
def readCommand (command : UInt8 × UInt8) : RNode.KissFrame :=
  ⟨command.1, if Special command.2 then [] else [command.2]⟩

/-- A decoder in step reads a command so, and is in step after it. -/
theorem readCommand_taken {command : UInt8 × UInt8} (plain : command.1 ≠ FEND)
    (known : command.1 ≠ CMD_UNKNOWN) : FeedAll.Taken RNode.KissDecoder.push RNode.KissDecoder.InStep
      (writeCommand command.1 [command.2]) (readCommand command) := by
  by_cases special : Special command.2
  · intro decoder inStep
    -- The frame is opened and told its command.
    have opened := RNode.KissDecoder.push_fend_inStep inStep
    have told : RNode.KissDecoder.push ⟨true, false, CMD_UNKNOWN, []⟩ command.1 =
        (none, ⟨true, false, command.1, []⟩) := by
      simp [RNode.KissDecoder.push, plain]
    have lost : readCommand command = ⟨command.1, []⟩ := by rw [readCommand, if_pos special]
    rw [writeCommand, FeedAll.cons, opened, FeedAll.cons, told, lost, List.singleton_append]
    rcases special with ends | escapes
    · -- A frame end closes it, and the next one opens another.
      rw [ends]
      simp [RNode.KissDecoder.push, known, RNode.KissDecoder.InStep]
    · -- An escape waits for its other half, and finds the end of the frame.
      have other : FESC ≠ FEND := by decide
      rw [escapes]
      simp [RNode.KissDecoder.push, known, other, RNode.KissDecoder.InStep]
  · -- Any other byte is written as it is escaped.
    have same : writeCommand command.1 [command.2] = RNode.encodeFrame command.1 [command.2] := by
      unfold Special at special
      rw [not_or] at special
      simp [writeCommand, RNode.encodeFrame, escapeInto, escapeByte, special]
    have whole : readCommand command = ⟨command.1, [command.2]⟩ := by rw [readCommand, if_neg special]
    rw [same, whole]
    exact RNode.KissDecoder.taken plain known (by simp [RNode.RNODE_HW_MTU])

/--
A decoder of this kind reads the parameters of an interface exactly when none of them is a byte that would
have to be escaped: a command with any other is read without its byte.
-/
theorem kiss_parameters_read (config : KissInterface) :
    (feedAll RNode.KissDecoder.push .new config.configureDevice).1 = config.frames ↔
      ¬ Special (scale10ms config.preamble) ∧ ¬ Special (scale10ms config.txtail) ∧
        ¬ Special config.persistence ∧ ¬ Special (scale10ms config.slottime) := by
  have names : ∀ command ∈ config.commands, command.1 ≠ FEND ∧ command.1 ≠ CMD_UNKNOWN := by
    intro command member
    have named : command.1 ∈ config.commands.map Prod.fst := List.mem_map_of_mem member
    have all : ∀ name ∈ [CMD_TXDELAY, CMD_TXTAIL, CMD_P, CMD_SLOTTIME, CMD_READY],
        name ≠ FEND ∧ name ≠ CMD_UNKNOWN := by decide +kernel
    exact all command.1 named
  have read := (FeedAll.frames (fun command member =>
    readCommand_taken (names command member).1 (names command member).2)
    (show RNode.KissDecoder.InStep .new by simp [RNode.KissDecoder.InStep, RNode.KissDecoder.new])).1
  have last : ¬ Special 0x01 := by decide
  have each : ∀ byte, (if Special byte then [] else [byte]) = [byte] ↔ ¬ Special byte := by
    intro byte
    split <;> simp_all
  rw [KissInterface.configureDevice, read, KissInterface.frames]
  simp only [KissInterface.commands, readCommand, List.map_cons, List.map_nil, List.cons.injEq,
    RNode.KissFrame.mk.injEq, true_and, and_true, each, last, if_false]

end Reticulum.Kiss
