import ReticulumSdk.Base.Sha256

/-! HMAC and HKDF with SHA-256 over byte lists. -/

namespace Reticulum.Sha256

/-- The length of a block of SHA-256. -/
def blockLength : Nat := 64

/-- HMAC-SHA-256, whose key is padded to a block. -/
def hmac (key message : List UInt8) : List UInt8 :=
  let short := if key.length > blockLength then hash key else key
  let padded := short ++ List.replicate (blockLength - short.length) 0
  hash (padded.map (· ^^^ 0x5c) ++ hash (padded.map (· ^^^ 0x36) ++ message))

/-- The blocks of an expansion without context, each made of the one before and its number. -/
def expandBlocks (key : List UInt8) : Nat → List UInt8 → Nat → List UInt8
  | 0, _, _ => []
  | count + 1, previous, number =>
    let block := hmac key (previous ++ [UInt8.ofNat number])
    block ++ expandBlocks key count block (number + 1)

/-- HKDF-SHA-256 without context: the key is extracted and then expanded. -/
def hkdf (salt material : List UInt8) (length : Nat) : List UInt8 :=
  (expandBlocks (hmac salt material) ((length + 31) / 32) [] 1).take length

@[simp] theorem hmac_length (key message : List UInt8) : (hmac key message).length = 32 :=
  hash_length _

/-- Each block is a digest. -/
theorem expandBlocks_length (key : List UInt8) (count : Nat) (previous : List UInt8) (number : Nat) :
    (expandBlocks key count previous number).length = 32 * count := by
  -- Each block is a digest of thirty-two bytes.
  induction count generalizing previous number with
  | zero => rfl
  | succ count ih =>
    simp only [expandBlocks, List.length_append, hmac_length, ih]
    omega

/-- An expansion has the length that is asked for. -/
@[simp] theorem hkdf_length (salt material : List UInt8) (length : Nat) :
    (hkdf salt material length).length = length := by
  rw [hkdf, List.length_take, expandBlocks_length]
  omega

end Reticulum.Sha256
