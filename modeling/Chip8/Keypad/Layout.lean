import Chip8.Keypad
import Chip8.Text.Lowercase

/-!
# `Chip8.Keypad.Layout` — the keypad on a typewriter keyboard

The four rows `1 2 3 C`, `4 5 6 D`, `7 8 9 E` and `A 0 B F` of the keypad lie on the keys `1 2 3 4`,
`q w e r`, `a s d f` and `z x c v`.

## Contents
- **Layout.** `layout`.
- **Names.** `Key.ofName?`: the key under a name, whatever its case.
-/

namespace Chip8

/-- The keyboard's name for each key. -/
def layout : List (String × Key) := [
  ("1", 0x1), ("2", 0x2), ("3", 0x3), ("4", 0xC),
  ("q", 0x4), ("w", 0x5), ("e", 0x6), ("r", 0xD),
  ("a", 0x7), ("s", 0x8), ("d", 0x9), ("f", 0xE),
  ("z", 0xA), ("x", 0x0), ("c", 0xB), ("v", 0xF)]

/-- The key under a name of the keyboard. -/
def Key.ofName? (name : String) : Option Key := layout.lookup (Text.lower name)

end Chip8
