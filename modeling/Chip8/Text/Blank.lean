import Chip8.Text.CharSet

/-!
# `Chip8.Text.Blank` — white space

Two notions of a blank are in use. Text from the environment is trimmed by the white space of
Unicode together with the four separators U+001C to U+001F; numbers are trimmed by the six blanks of
ASCII.

## Contents
- **Characters.** `blanks`, `isBlank`, `isAsciiBlank`.
- **Trimming.** `trim`, with `dropEnds` for any class of characters.
-/

namespace Chip8.Text

/-! ## Characters -/

/-- White space of Unicode 14, the information separators included. -/
def blanks : CharSet where
  edges := #[
    0x9, 0xE, 0x1C, 0x21, 0x85, 0x86, 0xA0, 0xA1, 0x1680, 0x1681, 0x2000, 0x200B, 0x2028,
    0x202A, 0x202F, 0x2030, 0x205F, 0x2060, 0x3000, 0x3001]

/-- Whether `c` is white space. -/
def isBlank (c : Char) : Bool := blanks.contains c

/-- Tab, line feed, vertical tab, form feed, carriage return and space. -/
def isAsciiBlank (c : Char) : Bool := (0x9 ≤ c.toNat && c.toNat ≤ 0xD) || c.toNat == 0x20

/-! ## Trimming -/

/-- Removes the characters of a class from both ends. -/
def dropEnds (p : Char → Bool) (cs : List Char) : List Char :=
  ((cs.dropWhile p).reverse.dropWhile p).reverse

/-- `s` without the white space at its two ends. -/
def trim (s : String) : String := String.ofList (dropEnds isBlank s.toList)

end Chip8.Text
