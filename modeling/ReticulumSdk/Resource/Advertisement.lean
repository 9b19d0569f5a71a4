import ReticulumSdk.Base.MsgpackFormat
import ReticulumSdk.Resource.StateLaws

/-! How a resource is advertised: the dictionary an advertisement is packed into and read from. -/

namespace Reticulum

open Resource

/-- The keys of the dictionary. -/
inductive AdvertisementKey where
  | t
  | d
  | n
  | h
  | r
  | o
  | i
  | l
  | f
  | m
  | q
  deriving DecidableEq, Repr

namespace AdvertisementKey

/-- The text of a key. -/
def text : AdvertisementKey → Bytes
  | .t => keyText "t"
  | .d => keyText "d"
  | .n => keyText "n"
  | .h => keyText "h"
  | .r => keyText "r"
  | .o => keyText "o"
  | .i => keyText "i"
  | .l => keyText "l"
  | .f => keyText "f"
  | .m => keyText "m"
  | .q => keyText "q"

/-- The key with a text. -/
def ofText (text : Bytes) : Option AdvertisementKey :=
  [t, d, n, h, r, o, i, l, f, m, q].find? fun key => key.text = text

/-- The key a value names; any other value stands for the empty text, which names none. -/
def ofValue (key : Value) : Option AdvertisementKey := ofText (key.asStr.getD [])

/-- The value a key is written as. -/
def toValue (key : AdvertisementKey) : Value := .string key.text

/-- A key is read as it is written. -/
@[simp] theorem ofValue_toValue (key : AdvertisementKey) : ofValue key.toValue = some key := by
  cases key <;> decide +kernel

/-- The text of a key is one letter. -/
@[simp] theorem text_length (key : AdvertisementKey) : key.text.length = 1 := by
  cases key <;> decide +kernel

/-- It is a text for every reader. -/
theorem asStr_toValue (key : AdvertisementKey) : key.toValue.asStr = some key.text := by
  cases key <;> decide +kernel

end AdvertisementKey

/-- `n as i64` for an unsigned number: two's complement. -/
def asSigned (number : Nat) : Int := Int.bmod number usizeRange

/-- `n as u8` for a signed number. -/
def asU8 (number : Int) : UInt8 := .ofNat (number % 256).toNat

/-- The first bytes of a slice over an array of zeros. -/
def Hash.ofSlice (data : Bytes) : Hash where
  bytes := data.take HASH_SIZE ++ List.replicate (HASH_SIZE - data.length) 0
  length_eq := by
    rw [List.length_append, List.length_take, List.length_replicate]
    omega

/-- The first bytes of a slice over an array of four bytes. -/
def FourBytes.overwrite (quad : FourBytes) (data : Bytes) : FourBytes :=
  .ofBytes (data.take 4 ++ quad.toBytes.drop data.length)

namespace ResourceAdvertisement

/-- The advertisement `unpack` starts from. -/
def empty : ResourceAdvertisement where
  transferSize := 0
  dataSize := 0
  numParts := 0
  hash := .newEmpty
  randomHash := .zero
  originalHash := .newEmpty
  hashmap := []
  flags := 0
  segmentIndex := 0
  totalSegments := 0
  requestId := none

/-- The branch of a key in the loop of `unpack`. -/
def put (adv : ResourceAdvertisement) (value : Value) : AdvertisementKey → ResourceAdvertisement
  -- What is no number counts as zero, and what holds no bytes is passed over.
  | .t => { adv with transferSize := asUsize (value.asI64.getD 0) }
  | .d => { adv with dataSize := asUsize (value.asI64.getD 0) }
  | .n => { adv with numParts := asUsize (value.asI64.getD 0) }
  | .h => match value.asSlice with
    | some bytes => { adv with hash := .ofSlice bytes }
    | none => adv
  | .r => match value.asSlice with
    | some bytes => { adv with randomHash := adv.randomHash.overwrite bytes }
    | none => adv
  | .o => match value.asSlice with
    | some bytes => { adv with originalHash := .ofSlice bytes }
    | none => adv
  | .i => { adv with segmentIndex := asUsize (value.asI64.getD 0) }
  | .l => { adv with totalSegments := asUsize (value.asI64.getD 0) }
  | .f => { adv with flags := asU8 (value.asI64.getD 0) }
  | .m => match value.asSlice with
    | some bytes => { adv with hashmap := bytes }
    | none => adv
  -- An id is only taken if it has bytes.
  | .q => match value.asSlice with
    | some bytes => if bytes.isEmpty then adv else { adv with requestId := some bytes }
    | none => adv

/-- One turn of the loop of `unpack`. -/
def takeEntry (adv : ResourceAdvertisement) (entry : Value × Value) : ResourceAdvertisement :=
  match AdvertisementKey.ofValue entry.1 with
  | some key => adv.put entry.2 key
  -- The catch-all branch: other keys are passed over.
  | none => adv

/-- The dictionary that bytes hold, if they hold one. -/
def readDict (rmpv : Msgpack.Codec) (data : Bytes) : Option (List (Value × Value)) :=
  rmpv.readValue data >>= Value.asMap

/-- `ResourceAdvertisement::unpack`. -/
def unpack (rmpv : Msgpack.Codec) (data : Bytes) : Except RnsError ResourceAdvertisement :=
  match readDict rmpv data with
  | some dict => .ok (dict.foldl takeEntry empty)
  | none => .error .packetError

/-- The bounds of the loop of `pack`: the first hash of a segment, and where the hashes end. -/
def segmentBounds (profile : Profile) (numParts segment linkMdu : Nat) : Outcome (Nat × Nat) := do
  let hml := hashmapMaxLen linkMdu
  let hashmapStart ← profile.mul usizeRange segment hml
  let next ← profile.add usizeRange segment 1
  let hashmapEnd ← profile.mul usizeRange next hml
  return (hashmapStart, min hashmapEnd numParts)

/-- The loop of `pack`: the bytes of some of the map hashes. -/
def packHashes (profile : Profile) (hashmap : Bytes) : List Nat → Outcome Bytes
  | [] => .ok []
  | i :: rest => do
    let pos ← profile.mul usizeRange i MAPHASH_LEN
    let stop ← profile.add usizeRange pos MAPHASH_LEN
    -- A hash that the hashmap does not hold is left out.
    let mapHash ← if stop ≤ hashmap.length then slice hashmap pos stop else pure []
    let later ← packHashes profile hashmap rest
    return mapHash ++ later

/-- The dictionary `pack` writes. -/
def dict (adv : ResourceAdvertisement) (hashmapSeg : Bytes) : List (Value × Value) :=
  [(AdvertisementKey.t.toValue, .integer (asSigned adv.transferSize)),
   (AdvertisementKey.d.toValue, .integer (asSigned adv.dataSize)),
   (AdvertisementKey.n.toValue, .integer (asSigned adv.numParts)),
   (AdvertisementKey.h.toValue, .binary adv.hash.bytes),
   (AdvertisementKey.r.toValue, .binary adv.randomHash.toBytes),
   (AdvertisementKey.o.toValue, .binary adv.originalHash.bytes),
   (AdvertisementKey.i.toValue, .integer (asSigned adv.segmentIndex)),
   (AdvertisementKey.l.toValue, .integer (asSigned adv.totalSegments)),
   (AdvertisementKey.f.toValue, .integer adv.flags.toNat),
   (AdvertisementKey.m.toValue, .binary hashmapSeg),
   (AdvertisementKey.q.toValue, (adv.requestId.map Value.binary).getD .nil)]

/-- `ResourceAdvertisement::pack`. -/
def pack (rmpv : Msgpack.Codec) (profile : Profile) (adv : ResourceAdvertisement)
    (segment linkMdu : Nat) : Outcome (Except RnsError Bytes) := do
  let (hashmapStart, hashmapEnd) ← segmentBounds profile adv.numParts segment linkMdu
  -- A start behind the end makes an empty range, as in the source.
  let hashmapSeg ← packHashes profile adv.hashmap
    (List.range' hashmapStart (hashmapEnd - hashmapStart))
  match rmpv.writeValue (.map (adv.dict hashmapSeg)) with
  | some out => return .ok out
  | none => return .error .invalidArgument

end ResourceAdvertisement

end Reticulum
