/-!
# `Chip8.Storage` — what is too large to be stored

Sizes come from outside and may be any whole number. A row of items is asked for before it is made, and
refused when its places cannot be numbered or when there is no room for it. How much room there is depends
on where the program runs.

## Contents
- **Limits.** `greatestIndex`, `Room`, `room`.
- **Refusals.** `StorageError` and its wording.
- **Requests.** `reserve` for a row of items, `reserveCopies` for copies of a row of bytes.
-/

namespace Chip8

/-! ## Limits -/

/-- The greatest number of a place, in a signed word of sixty-four bits. -/
def greatestIndex : Nat := 0x7FFFFFFFFFFFFFFF

/-- Whether a number can be that of a place; places may be counted from the end. -/
def isIndex (n : Int) : Bool := -(greatestIndex + 1 : Int) ≤ n && n ≤ greatestIndex

/-- Where a program runs, seen through the bytes that it has room for. What a standard memory takes is always
there, and nothing is so large that its places could not be numbered. -/
class Room where
  bytes : Nat
  standard_le : 0x1000 ≤ bytes
  le_greatestIndex : bytes ≤ greatestIndex

/-- The bytes that there is room for. -/
def room [Room] : Nat := Room.bytes

/-- More room than a machine of any usual size takes. -/
@[reducible]
def Room.ample : Room := ⟨1 <<< 36, by decide, by decide⟩

/-- A positive number of items is a positive size. -/
theorem toNat_pos_of_pos {n : Int} (h : 0 < n) : 0 < n.toNat := by omega

/-! ## Refusals -/

/-- Why something is not stored. -/
inductive StorageError where
  /-- A size is no number of a place. -/
  | beyondIndex
  /-- Copies of bytes have a place without a number. -/
  | copiesTooLong
  /-- There is no room. -/
  | noRoom
  deriving DecidableEq, Repr

/-- The wording of a refusal; nothing is said about missing room. -/
def StorageError.message : StorageError → String
  | .beyondIndex => "cannot fit 'int' into an index-sized integer"
  | .copiesTooLong => "repeated bytes are too long"
  | .noRoom => ""

/-! ## Requests -/

/-- Asks for `count` items of `width` bytes each. -/
def reserve [Room] (width : Nat) (count : Int) : Except StorageError Unit :=
  if greatestIndex < count then .error .beyondIndex
  else if room < count * width then .error .noRoom
  else .ok ()

/-- Asks for `count` copies of `length` bytes. -/
def reserveCopies [Room] (length : Nat) (count : Int) : Except StorageError Unit :=
  if greatestIndex < count then .error .beyondIndex
  else if greatestIndex < count * length then .error .copiesTooLong
  else reserve length count

end Chip8
