/-!
# `Chip8.Keypad` — sixteen keys

## Contents
- **Keys.** `Key`, `Key.ofInt?`, and the report for a key that does not exist.
- **Keypad.** `Keypad`: which keys are down, with `setKey` and `isDown`.
-/

namespace Chip8

/-! ## Keys -/

/-- A key of the hexadecimal keypad. -/
abbrev Key := Fin 16

/-- The key with a number, if there is one. -/
def Key.ofInt? (index : Int) : Option Key :=
  if h : 0 ≤ index ∧ index < 16 then some ⟨index.toNat, by omega⟩ else none

theorem Key.ofInt?_eq_some_iff {index : Int} {key : Key} :
    Key.ofInt? index = some key ↔ index = key.val := by
  unfold Key.ofInt?
  split
  · rw [Option.some.injEq, Fin.ext_iff]
    dsimp only
    omega
  · have := key.isLt
    simp only [reduceCtorEq, false_iff]
    omega

/-- What a number without a key is reported as. -/
def Key.missing (index : Int) : String := "key index " ++ toString index ++ " outside 0x0-0xF"

/-! ## Keypad -/

/-- Which keys are down. -/
structure Keypad where
  down : Vector Bool 16
  deriving DecidableEq, Repr

namespace Keypad

/-- A keypad that nobody touches. -/
def released : Keypad := ⟨Vector.replicate 16 false⟩

instance : Inhabited Keypad := ⟨released⟩

/-- Whether a key is down. -/
def isDown (k : Keypad) (key : Key) : Bool := k.down[key]

/-- Whether the key with a number is down; a number without a key is not. -/
def isPressed (k : Keypad) (index : Int) : Bool :=
  match Key.ofInt? index with
  | some key => k.isDown key
  | none => false

/-- Puts a key down or up. -/
def setKey (k : Keypad) (key : Key) (pressed : Bool) : Keypad := ⟨k.down.set key pressed⟩

/-- Whether putting a key into a position is a new key-down. -/
def isKeyDown (k : Keypad) (key : Key) (pressed : Bool) : Bool := pressed && !k.isDown key

theorem isDown_setKey (k : Keypad) (key other : Key) (pressed : Bool) :
    (k.setKey key pressed).isDown other = if other = key then pressed else k.isDown other := by
  unfold isDown setKey
  by_cases h : other = key
  · subst h
    simp
  · have hv : key.val ≠ other.val := fun e => h (Fin.ext e.symm)
    simp [h, hv]

@[simp] theorem isDown_released (key : Key) : released.isDown key = false := by
  simp [isDown, released]

end Keypad

end Chip8
