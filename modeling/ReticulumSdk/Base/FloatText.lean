import ReticulumSdk.Base.TextLines

/-! A double in decimal: its shortest digits that are read back as it, without an exponent. -/

namespace Reticulum.FloatText

/--
A finite double above zero as a whole number of units of two to some power, with how far below and
above it numbers are still rounded to it, and whether the ends of that interval are.
-/
structure Decoded where
  mant : Nat
  minus : Nat
  plus : Nat
  exp : Int
  inclusive : Bool

/-- The interval of a double, by the bits of its exponent and its fraction. -/
def decode (exponent fraction : Nat) : Decoded :=
  -- A subnormal number has no leading one, and its neighbours are as far as those of the smallest normal.
  if exponent = 0 then ⟨2 * fraction, 1, 1, -1075, fraction % 2 = 0⟩
  -- Below a power of two the doubles are twice as dense.
  else if fraction = 0 then ⟨2 ^ 52 * 4, 1, 2, exponent - 1077, true⟩
  else ⟨(2 ^ 52 + fraction) * 2, 1, 1, exponent - 1076, fraction % 2 = 0⟩

/-- The whole number of tens to some power that is in the interval, the nearest one if there are two. -/
def digitsAt (decoded : Decoded) (power : Int) : Option Nat :=
  let unit := 2 ^ decoded.exp.toNat * 10 ^ (-power).toNat
  let scale := 2 ^ (-decoded.exp).toNat * 10 ^ power.toNat
  let below := decoded.mant * unit % scale
  let within (distance reach : Nat) : Bool :=
    if decoded.inclusive then distance ≤ reach * unit else distance < reach * unit
  let down := within below decoded.minus
  let up := within (scale - below) decoded.plus
  if up ∧ (¬ down ∨ scale ≤ 2 * below) then some (decoded.mant * unit / scale + 1)
  else if down then some (decoded.mant * unit / scale)
  else none

/-- The shortest digits, with the power of ten of the last one: the largest power that has any. -/
def shortest (decoded : Decoded) : Nat × Int :=
  ((List.range 634).findSome? fun i =>
    let power : Int := 309 - i
    (digitsAt decoded power).map (·, power)).getD (0, 0)

/-- A whole number of tens to some power, written out. -/
def plainDecimal (digits : Nat) (power : Int) : List Char :=
  let written := Nat.toDigits 10 digits
  let fraction := (-power).toNat
  if power ≥ 0 then written ++ List.replicate power.toNat '0'
  else if fraction < written.length then
    written.take (written.length - fraction) ++ '.' :: written.drop (written.length - fraction)
  else '0' :: '.' :: (List.replicate (fraction - written.length) '0' ++ written)

/-- `Display` of an `f64`, by its bits. -/
def display (bits : UInt64) : String :=
  let exponent := bits.toNat / 2 ^ 52 % 2 ^ 11
  let fraction := bits.toNat % 2 ^ 52
  let sign := if bits.toNat / 2 ^ 63 = 1 then ['-'] else []
  String.ofList <|
    if exponent = 2 ^ 11 - 1 then
      if fraction = 0 then sign ++ ['i', 'n', 'f'] else ['N', 'a', 'N']
    else if exponent = 0 ∧ fraction = 0 then sign ++ ['0']
    else
      let (digits, power) := shortest (decode exponent fraction)
      sign ++ plainDecimal digits power

/-- What is written out has digits and a point. -/
theorem not_break_of_mem_plainDecimal {digits : Nat} {power : Int} {char : Char}
    (member : char ∈ plainDecimal digits power) : TextLines.isLineBreak char = false := by
  -- There are digits and a point, and nothing else.
  have zeros : ∀ count, char ∈ List.replicate count '0' → TextLines.isLineBreak char = false := by
    intro count zero
    rw [List.eq_of_mem_replicate zero]
    decide
  unfold plainDecimal at member
  dsimp only at member
  split at member
  · rcases List.mem_append.mp member with digit | zero
    · exact TextLines.not_break_of_mem_toDigits digit
    · exact zeros _ zero
  · split at member
    · rcases List.mem_append.mp member with whole | rest
      · exact TextLines.not_break_of_mem_toDigits (List.mem_of_mem_take whole)
      · rcases List.mem_cons.mp rest with rfl | fraction
        · decide
        · exact TextLines.not_break_of_mem_toDigits (List.mem_of_mem_drop fraction)
    · rcases List.mem_cons.mp member with rfl | rest
      · decide
      · rcases List.mem_cons.mp rest with rfl | fraction
        · decide
        · rcases List.mem_append.mp fraction with zero | digit
          · exact zeros _ zero
          · exact TextLines.not_break_of_mem_toDigits digit

/-- A double is written on one line, whatever it is. -/
theorem unbroken_display (bits : UInt64) : TextLines.Unbroken (display bits) := by
  have sign : ∀ char ∈ (if bits.toNat / 2 ^ 63 = 1 then ['-'] else []),
      TextLines.isLineBreak char = false := by
    split <;> simp [TextLines.isLineBreak]
  have infinite : ∀ char ∈ ['i', 'n', 'f'], TextLines.isLineBreak char = false := by
    simp [TextLines.isLineBreak]
  have undefined : ∀ char ∈ ['N', 'a', 'N'], TextLines.isLineBreak char = false := by
    simp [TextLines.isLineBreak]
  intro char member
  unfold display at member
  simp only [String.toList_ofList] at member
  split at member
  · split at member
    · rcases List.mem_append.mp member with signed | word
      · exact sign char signed
      · exact infinite char word
    · exact undefined char member
  · split at member
    · rcases List.mem_append.mp member with signed | zero
      · exact sign char signed
      · rw [List.mem_singleton.mp zero]
        decide
    · rcases List.mem_append.mp member with signed | decimal
      · exact sign char signed
      · exact not_break_of_mem_plainDecimal decimal

end Reticulum.FloatText
