import ReticulumSdk.Base.Checked

/-! The error type every fallible operation of the stack returns. -/

namespace Reticulum

/-- `RnsError`. -/
inductive RnsError where
  | outOfMemory
  | invalidArgument
  | incorrectSignature
  | incorrectHash
  | cryptoError
  | packetError
  | connectionError
  | linkClosed
  | channelError
  | channelLinkNotReady
  | channelMessageTooBig
  | channelUnknownMessageType
  deriving DecidableEq, Repr

end Reticulum
