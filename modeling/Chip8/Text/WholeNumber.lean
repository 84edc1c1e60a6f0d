import Chip8.Text.Blank

/-!
# `Chip8.Text.WholeNumber` — reading whole numbers in decimal

A number may stand between blanks, carry a sign and group its digits by single underscores. Digits of
every script count. When the text holds a character beyond ASCII, all white space counts as blank,
otherwise only the six blanks of ASCII.

## Contents
- **Digits.** `digitZeros`, `digitValue?`.
- **Grammar.** `toAscii?` maps a text to the ASCII form, `readDigits?` reads grouped digits.
- **Reading.** `maxDigits`, `readInt?`; `isWritable`: the numbers that are not too long.
-/

namespace Chip8.Text

/-! ## Digits -/

/-- The zeros of the decimal digits of Unicode 14; the nine other digits of a script follow its
zero. -/
def digitZeros : Array Nat := #[
  0x30, 0x660, 0x6F0, 0x7C0, 0x966, 0x9E6, 0xA66, 0xAE6, 0xB66, 0xBE6, 0xC66, 0xCE6, 0xD66,
  0xDE6, 0xE50, 0xED0, 0xF20, 0x1040, 0x1090, 0x17E0, 0x1810, 0x1946, 0x19D0, 0x1A80, 0x1A90,
  0x1B50, 0x1BB0, 0x1C40, 0x1C50, 0xA620, 0xA8D0, 0xA900, 0xA9D0, 0xA9F0, 0xAA50, 0xABF0,
  0xFF10, 0x104A0, 0x10D30, 0x11066, 0x110F0, 0x11136, 0x111D0, 0x112F0, 0x11450, 0x114D0,
  0x11650, 0x116C0, 0x11730, 0x118E0, 0x11950, 0x11C50, 0x11D50, 0x11DA0, 0x16A60, 0x16AC0,
  0x16B50, 0x1D7CE, 0x1D7D8, 0x1D7E2, 0x1D7EC, 0x1D7F6, 0x1E140, 0x1E2F0, 0x1E950, 0x1FBF0]

/-- The value of a decimal digit of any script. -/
def digitValue? (c : Char) : Option Nat :=
  (digitZeros.find? fun z => z ≤ c.toNat && c.toNat < z + 10).map (c.toNat - ·)

/-- Whether `c` is a decimal digit of any script. -/
def isDecimalDigit (c : Char) : Bool := (digitValue? c).isSome

/-! ## Grammar -/

/-- A character as ASCII: itself, a space for a blank, a digit for a digit; nothing else has a form. -/
def asciiForm? (c : Char) : Option Char :=
  if c.toNat < 0x7F then some c
  else if isBlank c then some ' '
  else (digitValue? c).map fun d => Char.ofNat ('0'.toNat + d)

/-- The ASCII form of a text; a text of ASCII alone is its own form. -/
def toAscii? (cs : List Char) : Option (List Char) :=
  if cs.all (·.toNat < 0x80) then some cs else cs.mapM asciiForm?

/-- The longest number that is read or written in decimal, in digits. -/
def maxDigits : Nat := 4300

/-- Whether a number can be written in decimal. -/
def isWritable (n : Int) : Bool := n.natAbs < Nat.pow 10 maxDigits

/-- The digits of a number, without the underscores that may stand one by one between digits. -/
def ungrouped? : List Char → Option (List Char)
  | [] => none
  | [c] => if c.isDigit then some [c] else none
  | c :: '_' :: rest => if c.isDigit then (ungrouped? rest).map (c :: ·) else none
  | c :: rest => if c.isDigit then (ungrouped? rest).map (c :: ·) else none

/-- The value of grouped digits, if there are not too many. -/
def readDigits? (cs : List Char) : Option Nat := do
  let ds ← ungrouped? cs
  if ds.length ≤ maxDigits then
    some (ds.foldl (fun n c => n * 10 + (c.toNat - '0'.toNat)) 0)
  else none

/-! ## Reading -/

/-- Reads a whole number with an optional sign. -/
def readInt? (s : String) : Option Int := do
  let cs ← toAscii? s.toList
  match dropEnds isAsciiBlank cs with
  | '-' :: rest => (readDigits? rest).map fun n => -(n : Int)
  | '+' :: rest => (readDigits? rest).map Int.ofNat
  | rest => (readDigits? rest).map Int.ofNat

end Chip8.Text
