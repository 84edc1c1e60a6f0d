import Chip8.Decimal.Binary64

/-!
# `Chip8.Number` — numbers from outside: whole, or double

Elapsed times, colour channels and speeds come as whole numbers of any size or as doubles.

## Contents
- **Numbers.** `Number`, and `Number.Error` with its wording.
- **Conversions.** `toFloat`, `truncate`, `isNegative`.
-/

namespace Chip8

/-! ## Numbers -/

/-- A whole number of any size, or a double. -/
inductive Number where
  | whole (n : Int)
  | real (x : Float)
  deriving DecidableEq

instance : Inhabited Number := ⟨.whole 0⟩

namespace Number

/-- What keeps a number from being converted. -/
inductive Error where
  /-- No number has no whole part. -/
  | notANumber
  /-- An infinity has no whole part. -/
  | infinite
  /-- A whole number that would round to an infinity is no double. -/
  | beyondDouble
  deriving DecidableEq, Repr

/-- The wording of a failed conversion. -/
def Error.message : Error → String
  | .notANumber => "cannot convert float NaN to integer"
  | .infinite => "cannot convert float infinity to integer"
  | .beyondDouble => "int too large to convert to float"

/-- The conversion error that a missing whole part amounts to. -/
def Error.ofNoWhole : Binary64.NoWhole → Error
  | .notANumber => .notANumber
  | .infinite => .infinite

/-! ## Conversions -/

/-- The double nearest to a whole number, which must not be an infinity. -/
def nearestDouble (n : Int) : Except Error Float :=
  let x := Float.ofInt n
  if x.isFinite then .ok x else .error .beyondDouble

/-- The number as a double. -/
def toFloat : Number → Except Error Float
  | .whole n => nearestDouble n
  | .real x => .ok x

/-- The whole part of a number, its fraction cut off. -/
def truncate : Number → Except Error Int
  | .whole n => .ok n
  | .real x => (Binary64.truncate x).mapError Error.ofNoWhole

/-- Whether the number lies below zero; no number does not. -/
def isNegative : Number → Bool
  | .whole n => n < 0
  | .real x => x < 0.0

end Number

end Chip8
