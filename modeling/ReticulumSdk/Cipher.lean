import ReticulumSdk.Error
import ReticulumSdk.Packet

/-! Ciphers as the stack calls them: into a buffer with room for the token. -/

namespace Reticulum

/-- A cipher with its key and randomness: input and output buffer to the bytes written and the buffer after. -/
abbrev Cipher := Bytes → Bytes → Except RnsError (Nat × Bytes)

/-- Run a cipher on a zeroed buffer with room for the token and keep what it wrote. -/
def Cipher.run (cipher : Cipher) (input : Bytes) : Except RnsError Bytes := do
  let room := input.length + RETICULUM_TOKEN_OVERHEAD + RETICULUM_AES_BLOCK_SIZE
  let (written, buffer) ← cipher input (List.replicate room 0)
  return buffer.take written

/-- A cipher that copies its input, for concrete runs. -/
def copyCipher : Cipher := fun input buffer => .ok (input.length, input ++ buffer.drop input.length)

/-- It returns its input. -/
theorem copyCipher_run (input : Bytes) : copyCipher.run input = .ok input := by
  simp [Cipher.run, copyCipher, Bind.bind, Except.bind, pure, Except.pure]

end Reticulum
