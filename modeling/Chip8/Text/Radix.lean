/-!
# `Chip8.Text.Radix` — whole numbers in hexadecimal, and padding

Addresses, words and bytes are shown in hexadecimal, in a field whose zeros stand between the sign
and the digits.

## Contents
- **Padding.** `padStart`, `padEnd`: fill a text up to a width, never cutting it.
- **Digits.** `digits`: the digits of a natural number in a base up to sixteen.
- **Fields.** `hexField` and `prefixedHex`: signed numbers filled with zeros up to a total width.
-/

namespace Chip8.Text

/-! ## Padding -/

/-- Fills `s` on the left with `fill` up to `width` characters. -/
def padStart (width : Nat) (fill : Char) (s : String) : String :=
  String.ofList (List.replicate (width - s.length) fill) ++ s

/-- A text that is wide enough is not filled. -/
theorem padStart_of_le {width : Nat} {fill : Char} {s : String} (h : width ≤ s.length) :
    padStart width fill s = s := by
  rw [padStart, Nat.sub_eq_zero_of_le h]
  simp

/-- Fills `s` on the right with blanks up to `width` characters. -/
def padEnd (width : Nat) (s : String) : String :=
  s ++ String.ofList (List.replicate (width - s.length) ' ')

/-! ## Digits -/

/-- Which letters stand for the digits from ten to fifteen. -/
inductive LetterCase where
  | lower
  | upper
  deriving DecidableEq, Repr

/-- The digits of `n` in `base`, most significant first. -/
def digits (base : Nat) (letters : LetterCase) (n : Nat) : String :=
  let ds := Nat.toDigits base n
  String.ofList (match letters with
    | .lower => ds
    | .upper => ds.map Char.toUpper)

/-- Every number has a digit. -/
theorem length_digits_pos (base n : Nat) (letters : LetterCase) :
    0 < (digits base letters n).length := by
  cases letters with
  | lower =>
    rw [digits, String.length_ofList]
    exact Nat.length_toDigits_pos
  | upper =>
    rw [digits, String.length_ofList, List.length_map]
    exact Nat.length_toDigits_pos

/-- The sign that is written before a number: only the minus of a negative one. -/
def minus (x : Int) : String := if x < 0 then "-" else ""

/-! ## Fields -/

/-- `lead`, zeros and `body`, so that the whole has at least `width` characters. -/
def zeroFilled (width : Nat) (lead body : String) : String :=
  lead ++ padStart (width - lead.length) '0' body

/-- `x` in hexadecimal, filled with zeros after its sign up to `width` characters. -/
def hexField (letters : LetterCase) (width : Nat) (x : Int) : String :=
  zeroFilled width (minus x) (digits 16 letters x.natAbs)

/-- `x` in lower-case hexadecimal after `0x`, filled with zeros up to `width` characters in all. -/
def prefixedHex (width : Nat) (x : Int) : String :=
  zeroFilled width (minus x ++ "0x") (digits 16 .lower x.natAbs)

/-- The two lower-case digits of a byte. -/
def byteHex (b : UInt8) : String := hexField .lower 2 b.toNat

/-- Bytes as a run of two-digit numbers. -/
def bytesHex (bytes : List UInt8) : String := String.join (bytes.map byteHex)

end Chip8.Text
