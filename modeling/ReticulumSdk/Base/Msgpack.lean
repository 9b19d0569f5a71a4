import Mathlib.Algebra.Group.Int.Defs
import ReticulumSdk.Base.Checked
import ReticulumSdk.Hash

/-! The MessagePack data model that resource and transport messages are built from. -/

namespace Reticulum

/-- A MessagePack value, with floats kept by their bits and strings by their bytes. -/
inductive Value where
  | nil
  | boolean (flag : Bool)
  | integer (number : Int)
  | f32 (bits : UInt32)
  | f64 (bits : UInt64)
  | string (text : Bytes)
  | binary (data : Bytes)
  | array (items : List Value)
  | map (entries : List (Value × Value))
  | ext (kind : Int) (data : Bytes)

namespace Value

/-- `Value::as_i64`, empty for other kinds and for numbers outside the type. -/
def asI64 : Value → Option Int
  | .integer number => if -(isizeRange : Int) ≤ number ∧ number < isizeRange then some number else none
  | _ => none

/-- `Value::as_u64`, empty for other kinds and for numbers outside the type. -/
def asU64 : Value → Option Nat
  | .integer number => if 0 ≤ number ∧ number < 2 ^ 64 then some number.toNat else none
  | _ => none

/-- `Value::as_f64`: the bits of a float, or of the float nearest to an integer. -/
def asF64 : Value → Option UInt64
  | .f64 bits => some bits
  | .f32 bits => some (Float32.ofBits bits).toFloat.toBits
  | .integer number =>
    let size := (UInt64.ofNat number.natAbs).toFloat
    some (if number < 0 then -size else size).toBits
  | _ => none

/-- `Value::as_slice`: the bytes of a binary or a string. -/
def asSlice : Value → Option Bytes
  | .binary data => some data
  | .string text => some text
  | _ => none

/-- `Value::as_array`. -/
def asArray : Value → Option (List Value)
  | .array items => some items
  | _ => none

/-- `Value::as_map`. -/
def asMap : Value → Option (List (Value × Value))
  | .map entries => some entries
  | _ => none

/-- `Value::as_str`, by its bytes: a string that is valid UTF-8. -/
def asStr : Value → Option Bytes
  | .string text => if (ByteArray.mk text.toArray).validateUTF8 then some text else none
  | _ => none

end Value

/-- The text of a key, by its bytes. -/
def keyText (text : String) : Bytes := text.toUTF8.toList

/-- `rmp::decode::read_f64`: the marker of a float and its bits, the highest byte first. -/
def readF64 : Bytes → Option Float
  | 0xCB :: rest =>
    if rest.length < 8 then none
    else some (Float.ofBits ((rest.take 8).foldl (fun bits byte => bits <<< 8 ||| byte.toUInt64) 0))
  | _ => none

/-- `n as usize` for a signed number: two's complement at the pointer width. -/
def asUsize (number : Int) : Nat := (number % usizeRange).toNat

/-- A non-negative number below the width keeps its value. -/
theorem asUsize_natCast {number : Nat} (small : number < usizeRange) :
    asUsize (number : Int) = number := by
  unfold asUsize
  rw [Int.emod_eq_of_lt (by omega) (by exact_mod_cast small)]
  rfl

end Reticulum
