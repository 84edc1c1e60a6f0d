import Chip8.Text.CaseTable

/-!
# `Chip8.Text.Lowercase` — small letters

Names are compared without regard to case by comparing their small letters. The rule is that of
Unicode: most letters have one small letter whatever stands around them, a capital I with a dot
becomes two code points, and a capital sigma becomes a final sigma at the end of a word.

## Contents
- **Letters.** `lowerChar`: the small letter of a character on its own.
- **Words.** `endsWord`: whether a sigma between two texts closes a word.
- **Text.** `lowerChars`, `lower`.
-/

namespace Chip8.Text

/-! ## Letters -/

/-- The small letter of a character on its own; characters without one are kept. -/
def lowerChar (c : Char) : Char :=
  match lowerRuns.find? (·.contains c.toNat) with
  | some run => Char.ofNat (c.toNat + run.offset).toNat
  | none => c

/-! ## Words -/

/-- Whether the nearest character that is not skipped is a cased letter. -/
def meetsCased (cs : List Char) : Bool :=
  match cs.dropWhile caseIgnorable.contains with
  | [] => false
  | c :: _ => cased.contains c

/-- Whether a letter between `before`, given nearest first, and `after` is the last of its word. -/
def endsWord (before after : List Char) : Bool := meetsCased before && !meetsCased after

/-! ## Text -/

/-- The small letters of `cs`, where `before` holds what precedes it, nearest first. -/
def lowerChars (before : List Char) : List Char → List Char
  | [] => []
  | c :: rest =>
    let small :=
      if c == 'Σ' then [if endsWord before rest then 'ς' else 'σ']
      else if c == 'İ' then ['i', Char.ofNat 0x307]
      else [lowerChar c]
    small ++ lowerChars (c :: before) rest

/-- `s` in small letters. -/
def lower (s : String) : String := String.ofList (lowerChars [] s.toList)

end Chip8.Text
