import Chip8.Keypad

/-!
# `Chip8.Keypad.Listeners` — a keypad that tells of key-downs

Listeners hear of every new key-down in the order in which they came. A listener that hears of one may
bring further listeners, who hear of later key-downs only.

## Contents
- **Keypad.** `Watched`: a keypad with its listeners.
- **Telling.** `listen`, and `tell`: listeners are told one after the other, and bring others along.
- **Operations.** `setKey`, `setIndex` for the number of a key, `NoSuchKey`, `reset`.
-/

namespace Chip8

/-! ## Keypad -/

/-- A keypad and those who listen to it, the first come first. -/
structure Watched (L : Type) where
  keypad : Keypad
  listeners : List L

namespace Watched

variable {L : Type}

/-- A keypad that nobody touches and nobody hears. -/
def new : Watched L := ⟨.released, []⟩

/-! ## Telling -/

/-- Adds a listener. -/
def listen (w : Watched L) (l : L) : Watched L := { w with listeners := w.listeners ++ [l] }

/-- Tells some listeners of a key, one after the other, and lists them with the key. Each may bring
others along, who are added as they come. `brings` says whom. -/
def tell (brings : L → Key → List L) (key : Key) : List L → Watched L → Watched L × List (L × Key)
  | [], w => (w, [])
  | l :: rest, w =>
    let (w, told) := tell brings key rest ((brings l key).foldl listen w)
    (w, (l, key) :: told)

/-! ## Operations -/

/-- Puts a key down or up, and lists who heard of it: those who listen when the key goes down. -/
def setKey (brings : L → Key → List L) (w : Watched L) (key : Key) (pressed : Bool) :
    Watched L × List (L × Key) :=
  let turned := { w with keypad := w.keypad.setKey key pressed }
  if w.keypad.isKeyDown key pressed then tell brings key w.listeners turned else (turned, [])

/-- A number that should be that of a key and is not. -/
structure NoSuchKey where
  index : Int
  deriving DecidableEq, Repr

/-- The wording of a missing key. -/
def NoSuchKey.message (e : NoSuchKey) : String := Key.missing e.index

/-- Puts the key with a number down or up. -/
def setIndex (brings : L → Key → List L) (w : Watched L) (index : Int) (pressed : Bool) :
    Except NoSuchKey (Watched L × List (L × Key)) :=
  match Key.ofInt? index with
  | some key => .ok (w.setKey brings key pressed)
  | none => .error ⟨index⟩

/-- Puts all keys up, which nobody hears. -/
def reset (w : Watched L) : Watched L := { w with keypad := .released }

end Watched

end Chip8
