import Chip8.Text.Printable
import Chip8.Text.Radix

/-!
# `Chip8.Text.Quoted` — text in quotes

A quoted text stands between apostrophes, or between double quotes when it holds an apostrophe and no
double quote. Inside, the backslash and the chosen quote are escaped, and what cannot be printed is
written by its code point.

## Contents
- **Quotes.** `quoteFor`: the quote chosen for a text.
- **Characters.** `escape`: one character inside quotes.
- **Text.** `quoted`, and `quotedAscii`, which escapes all that is not ASCII.
-/

namespace Chip8.Text

/-! ## Quotes -/

/-- The apostrophe, unless it occurs in the text and the double quote does not. -/
def quoteFor (cs : List Char) : Char :=
  if cs.contains '\'' && !cs.contains '"' then '"' else '\''

/-! ## Characters -/

/-- A code point as an escape of two, four or eight digits. -/
def codeEscape (n : Nat) : String :=
  if n ≤ 0xFF then "\\x" ++ hexField .lower 2 n
  else if n ≤ 0xFFFF then "\\u" ++ hexField .lower 4 n
  else "\\U" ++ hexField .lower 8 n

/-- One character inside quotes; `plain` says which characters beyond ASCII are shown as they are. -/
def escape (plain : Char → Bool) (quote c : Char) : String :=
  if c == quote || c == '\\' then String.ofList ['\\', c]
  else if c == '\t' then "\\t"
  else if c == '\n' then "\\n"
  else if c == '\r' then "\\r"
  else if 0x20 ≤ c.toNat && c.toNat < 0x7F then String.singleton c
  else if 0x80 ≤ c.toNat && plain c then String.singleton c
  else codeEscape c.toNat

/-! ## Text -/

/-- `s` in quotes, where `plain` says which characters beyond ASCII are shown as they are. -/
def quotedBy (plain : Char → Bool) (s : String) : String :=
  let q := quoteFor s.toList
  String.singleton q ++ String.join (s.toList.map (escape plain q)) ++ String.singleton q

/-- `s` in quotes. -/
def quoted (s : String) : String := quotedBy isPrintable s

/-- `s` in quotes, in ASCII. -/
def quotedAscii (s : String) : String := quotedBy (fun _ => false) s

end Chip8.Text
