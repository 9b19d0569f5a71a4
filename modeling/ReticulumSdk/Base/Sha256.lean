import Mathlib.Algebra.Group.Nat.Defs
import Mathlib.Data.List.Basic

/-! SHA-256 over byte lists, written with the natural-number operations the kernel evaluates. -/

namespace Reticulum.Sha256

/-- A 32-bit word, kept below `2 ^ 32` by every operation that could leave it. -/
abbrev Word := Nat

/-- Reduction to 32 bits. -/
def wrap (value : Nat) : Word := Nat.mod value 4294967296

/-- The bits of a word rotated right, still followed by a copy of the word above bit 31. -/
def rotate (word : Word) (count : Nat) : Nat :=
  -- Two copies of the word side by side turn a rotation into a shift.
  Nat.shiftRight (Nat.mul word 4294967297) count

/-- The schedule function `σ0` of FIPS 180-4. -/
def smallSigma0 (word : Word) : Word :=
  wrap (Nat.xor (Nat.xor (rotate word 7) (rotate word 18)) (Nat.shiftRight word 3))

/-- The schedule function `σ1`. -/
def smallSigma1 (word : Word) : Word :=
  wrap (Nat.xor (Nat.xor (rotate word 17) (rotate word 19)) (Nat.shiftRight word 10))

/-- The round function `Σ0`. -/
def bigSigma0 (word : Word) : Word :=
  wrap (Nat.xor (Nat.xor (rotate word 2) (rotate word 13)) (rotate word 22))

/-- The round function `Σ1`. -/
def bigSigma1 (word : Word) : Word :=
  wrap (Nat.xor (Nat.xor (rotate word 6) (rotate word 11)) (rotate word 25))

/-- Bits of `y` where `x` is one and of `z` where it is zero. -/
def choose (x y z : Word) : Word := Nat.xor z (Nat.land x (Nat.xor y z))

/-- The bit held by at least two of the three words. -/
def majority (x y z : Word) : Word := Nat.lor (Nat.land x y) (Nat.land z (Nat.lor x y))

/-- The eight-word chaining state. -/
structure State where
  a : Word
  b : Word
  c : Word
  d : Word
  e : Word
  f : Word
  g : Word
  h : Word

/-- One constant per round. -/
def roundConstants : List Word :=
  [0x428a2f98, 0x71374491, 0xb5c0fbcf, 0xe9b5dba5, 0x3956c25b, 0x59f111f1, 0x923f82a4, 0xab1c5ed5,
   0xd807aa98, 0x12835b01, 0x243185be, 0x550c7dc3, 0x72be5d74, 0x80deb1fe, 0x9bdc06a7, 0xc19bf174,
   0xe49b69c1, 0xefbe4786, 0x0fc19dc6, 0x240ca1cc, 0x2de92c6f, 0x4a7484aa, 0x5cb0a9dc, 0x76f988da,
   0x983e5152, 0xa831c66d, 0xb00327c8, 0xbf597fc7, 0xc6e00bf3, 0xd5a79147, 0x06ca6351, 0x14292967,
   0x27b70a85, 0x2e1b2138, 0x4d2c6dfc, 0x53380d13, 0x650a7354, 0x766a0abb, 0x81c2c92e, 0x92722c85,
   0xa2bfe8a1, 0xa81a664b, 0xc24b8b70, 0xc76c51a3, 0xd192e819, 0xd6990624, 0xf40e3585, 0x106aa070,
   0x19a4c116, 0x1e376c08, 0x2748774c, 0x34b0bcb5, 0x391c0cb3, 0x4ed8aa4a, 0x5b9cca4f, 0x682e6ff3,
   0x748f82ee, 0x78a5636f, 0x84c87814, 0x8cc70208, 0x90befffa, 0xa4506ceb, 0xbef9a3f7, 0xc67178f2]

/-- The chaining state before the first block. -/
def initial : State :=
  ⟨0x6a09e667, 0xbb67ae85, 0x3c6ef372, 0xa54ff53a, 0x510e527f, 0x9b05688c, 0x1f83d9ab, 0x5be0cd19⟩

/-- One of the sixty-four rounds of a block. -/
def round : State → Word → Word → State
  | ⟨a, b, c, d, e, f, g, h⟩, constant, word =>
    let first := Nat.add (Nat.add h (bigSigma1 e)) (Nat.add (choose e f g) (Nat.add constant word))
    ⟨wrap (Nat.add first (Nat.add (bigSigma0 a) (majority a b c))), a, b, c,
      wrap (Nat.add d first), e, f, g⟩

/-- The rounds of one block, in order. -/
def rounds : List Word → List Word → State → State
  | constant :: constants, word :: words, state =>
    rounds constants words (round state constant word)
  | _, _, state => state

/-- Big-endian words of a byte list. -/
def wordsOf : List UInt8 → List Word
  | a :: b :: c :: d :: rest =>
    Nat.add (Nat.mul (Nat.add (Nat.mul (Nat.add (Nat.mul a.toNat 256) b.toNat) 256) c.toNat) 256)
      d.toNat :: wordsOf rest
  | _ => []

/-- The message schedule, produced from a sliding window of sixteen words. -/
def schedule : Nat → List Word → List Word
  | count + 1, [w0, w1, w2, w3, w4, w5, w6, w7, w8, w9, w10, w11, w12, w13, w14, w15] =>
    w0 :: schedule count [w1, w2, w3, w4, w5, w6, w7, w8, w9, w10, w11, w12, w13, w14, w15,
      wrap (Nat.add (Nat.add (smallSigma1 w14) w9) (Nat.add (smallSigma0 w1) w0))]
  | _, _ => []

/-- Wordwise addition, which feeds a block's result forward. -/
def State.add : State → State → State
  | ⟨a, b, c, d, e, f, g, h⟩, ⟨a', b', c', d', e', f', g', h'⟩ =>
    ⟨wrap (Nat.add a a'), wrap (Nat.add b b'), wrap (Nat.add c c'), wrap (Nat.add d d'),
      wrap (Nat.add e e'), wrap (Nat.add f f'), wrap (Nat.add g g'), wrap (Nat.add h h')⟩

/-- Compression of one sixty-four-byte block. -/
def compress (state : State) (block : List UInt8) : State :=
  state.add (rounds roundConstants (schedule 64 (wordsOf block)) state)

/-- The state after a number of blocks. -/
def blocks : Nat → List UInt8 → State → State
  | 0, _, state => state
  | count + 1, bytes, state => blocks count (bytes.drop 64) (compress state (bytes.take 64))

/-- The big-endian bytes of a number, at a fixed width. -/
def bigEndian : Nat → Nat → List UInt8
  | 0, _ => []
  | width + 1, value => UInt8.ofNat (value / 256 ^ width) :: bigEndian width value

/-- The message, its closing bit, zeros up to a block boundary and the bit length. -/
def pad (message : List UInt8) : List UInt8 :=
  message ++ 0x80 ::
    (List.replicate ((119 - message.length % 64) % 64) 0 ++ bigEndian 8 (message.length * 8))

/-- The 32-byte digest of a message. -/
def hash (message : List UInt8) : List UInt8 :=
  let padded := pad message
  let state := blocks (padded.length / 64) padded initial
  bigEndian 4 state.a ++ (bigEndian 4 state.b ++ (bigEndian 4 state.c ++ (bigEndian 4 state.d ++
    (bigEndian 4 state.e ++ (bigEndian 4 state.f ++ (bigEndian 4 state.g ++ bigEndian 4 state.h))))))

/-- A fixed width is kept whatever the number. -/
@[simp] theorem bigEndian_length (width value : Nat) : (bigEndian width value).length = width := by
  induction width with
  | zero => rfl
  | succ width ih => simp [bigEndian, ih]

/-- Every digest is thirty-two bytes. -/
@[simp] theorem hash_length (message : List UInt8) : (hash message).length = 32 := by
  simp [hash]

/-- Whole blocks are compressed before whatever follows them. -/
theorem blocks_append (count later : Nat) (front rest : List UInt8) (state : State)
    (whole : front.length = 64 * count) :
    blocks (count + later) (front ++ rest) state = blocks later rest (blocks count front state) := by
  -- The blocks are cut off the front one by one, which never reaches the rest.
  induction count generalizing front state with
  | zero =>
    obtain rfl := List.length_eq_zero_iff.mp whole
    rw [Nat.zero_add, List.nil_append, blocks]
  | succ count ih =>
    have full : 64 ≤ front.length := by omega
    rw [Nat.add_right_comm, blocks, blocks, List.take_append_of_le_length full,
      List.drop_append_of_le_length full]
    exact ih _ _ (by rw [List.length_drop]; omega)

/-- A digest starts with the first word of the state its last block leaves. -/
theorem hash_take {message front last : List UInt8} {count : Nat}
    (padded : pad message = front ++ last) (whole : front.length = 64 * count)
    (ending : last.length = 64) :
    (hash message).take 4 = bigEndian 4 (compress (blocks count front initial) last).a := by
  -- The first word of a digest is the first word of the state, with every block but the last known.
  have total : (front ++ last).length / 64 = count + 1 := by
    rw [List.length_append, whole, ending]
    omega
  have final : blocks 1 last (blocks count front initial) =
      compress (blocks count front initial) last := by
    rw [blocks, blocks, List.take_of_length_le (Nat.le_of_eq ending)]
  simp only [hash, padded, total, blocks_append count 1 front last initial whole, final]
  rw [List.take_append_of_le_length (by simp), List.take_of_length_le (by simp)]

-- The one-block test vector of FIPS 180-4 for the message `abc`.
example : hash [97, 98, 99] =
    [0xba, 0x78, 0x16, 0xbf, 0x8f, 0x01, 0xcf, 0xea, 0x41, 0x41, 0x40, 0xde, 0x5d, 0xae, 0x22, 0x23,
     0xb0, 0x03, 0x61, 0xa3, 0x96, 0x17, 0x7a, 0x9c, 0xb4, 0x10, 0xff, 0x61, 0xf2, 0x00, 0x15, 0xad] := by
  decide +kernel

end Reticulum.Sha256
