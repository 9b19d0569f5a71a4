import ReticulumSdk.Base.Sha256

/-! Digests, addresses and the four-byte hashes resource parts are named by. -/

namespace Reticulum

/-- A byte buffer. -/
abbrev Bytes := List UInt8

/-- `HASH_SIZE`: the width of a SHA-256 digest. -/
def HASH_SIZE : Nat := 32

/-- `ADDRESS_HASH_SIZE`. -/
def ADDRESS_HASH_SIZE : Nat := 16

/-- A full digest, always of the digest's width. -/
structure Hash where
  bytes : Bytes
  length_eq : bytes.length = HASH_SIZE
  deriving DecidableEq

/-- A truncated digest that names a destination or a link. -/
structure AddressHash where
  bytes : Bytes
  length_eq : bytes.length = ADDRESS_HASH_SIZE
  deriving DecidableEq

namespace Hash

/-- The digest of a byte string. -/
def generate (data : Bytes) : Hash := ⟨Sha256.hash data, Sha256.hash_length data⟩

/-- `Hash::new_empty`: thirty-two zero bytes. -/
def newEmpty : Hash := ⟨List.replicate HASH_SIZE 0, List.length_replicate⟩

end Hash

/-- A four-byte array, the width of both a part's map hash and a resource's random hash. -/
structure FourBytes where
  b0 : UInt8
  b1 : UInt8
  b2 : UInt8
  b3 : UInt8
  deriving DecidableEq

namespace FourBytes

/-- The bytes in order. -/
def toBytes (quad : FourBytes) : Bytes := [quad.b0, quad.b1, quad.b2, quad.b3]

/-- All four bytes are zero. -/
def isZero (quad : FourBytes) : Bool := quad = ⟨0, 0, 0, 0⟩

/-- The four-byte array of zeros. -/
def zero : FourBytes := ⟨0, 0, 0, 0⟩

/-- The first four bytes of a buffer. -/
def ofBytes (data : Bytes) : FourBytes :=
  ⟨data.getD 0 0, data.getD 1 0, data.getD 2 0, data.getD 3 0⟩

/-- The four-byte arrays a buffer is cut into, an incomplete tail being dropped. -/
def chunks : Bytes → List FourBytes
  | b0 :: b1 :: b2 :: b3 :: rest => ⟨b0, b1, b2, b3⟩ :: chunks rest
  | _ => []

@[simp] theorem toBytes_length (quad : FourBytes) : quad.toBytes.length = 4 := rfl

/-- Only the first four bytes of a buffer are read. -/
theorem ofBytes_take (data : Bytes) : ofBytes (data.take 4) = ofBytes data := by
  simp [ofBytes, List.getD]

/-- Arrays are told apart by their bytes. -/
theorem toBytes_injective {quad other : FourBytes} (same : quad.toBytes = other.toBytes) :
    quad = other :=
  congrArg ofBytes same

@[simp] theorem isZero_zero : zero.isZero = true := rfl

/-- Only the array of zeros is zero. -/
theorem isZero_iff {quad : FourBytes} : quad.isZero = true ↔ quad = zero := by
  simp [isZero, zero]

/-- Cutting a concatenation of arrays returns the arrays. -/
@[simp] theorem chunks_flatMap (quads : List FourBytes) : chunks (quads.flatMap toBytes) = quads := by
  induction quads with
  | nil => rfl
  | cons quad rest ih => simp [toBytes, chunks, ih]

end FourBytes

end Reticulum
