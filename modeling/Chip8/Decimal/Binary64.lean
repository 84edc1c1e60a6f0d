/-!
# `Chip8.Decimal.Binary64` — doubles as exact numbers

Every finite double is a whole number of units, the unit being the least positive double `2 ^ -1074`.
Remainders, whole parts and decimal digits of doubles are computed on that number, without rounding.

## Contents
- **Reading.** `Datum`, `datum`: what the bits of a double say.
- **Writing.** `ofUnits`: the double with a given number of units.
- **Arithmetic.** `remainder`, `truncate`, `floorQuotient`.
-/

namespace Chip8.Binary64

/-! ## Reading -/

/-- The value of a double: no number, an infinity, or a whole number of units. -/
inductive Datum where
  | notANumber
  | infinite (negative : Bool)
  | finite (negative : Bool) (units : Nat)
  deriving DecidableEq, Repr

/-- Units in one whole: `2 ^ 1074`. -/
def one : Nat := 1 <<< 1074

/-- The units of a double with the given exponent field and fraction. -/
def unitsOf (field fraction : Nat) : Nat :=
  if field = 0 then fraction else ((1 <<< 52) + fraction) <<< (field - 1)

/-- What the bits of `x` say: the sign, eleven bits of exponent and fifty-two of fraction. -/
def datum (x : Float) : Datum :=
  let bits := x.toBits.toNat
  let negative := bits >>> 63 == 1
  let field := bits >>> 52 % 0x800
  let fraction := bits % (1 <<< 52)
  if field = 2047 then (if fraction = 0 then .infinite negative else .notANumber)
  else .finite negative (unitsOf field fraction)

/-! ## Writing -/

/-- The bits of the double with `units` units. Below `2 ^ 53` the units are the bits; above, the
exponent field counts how often the units were halved until fifty-three bits were left. -/
def bitsOfUnits (units : Nat) : Nat :=
  let shift := units.log2 - 52
  shift <<< 52 + units >>> shift

/-- The double with a number of units that a double can have. -/
def ofUnits (negative : Bool) (units : Nat) : Float :=
  let x := Float.ofBits (UInt64.ofNat (bitsOfUnits units))
  if negative then -x else x

/-! ## Arithmetic -/

/-- The remainder of `x / y` with the sign of `x`, exactly. It is no number when `x` is infinite or
`y` is zero, and `x` itself when `y` is infinite. -/
def remainder (x y : Float) : Float :=
  match datum x, datum y with
  | .finite negative a, .finite _ b => if b = 0 then 0.0 / 0.0 else ofUnits negative (a % b)
  | .finite _ _, .infinite _ => x
  | _, _ => 0.0 / 0.0

/-- What keeps a double from having a whole part. -/
inductive NoWhole where
  | notANumber
  | infinite
  deriving DecidableEq, Repr

/-- The whole part of a double, its fraction cut off. -/
def truncate (x : Float) : Except NoWhole Int :=
  match datum x with
  | .notANumber => .error .notANumber
  | .infinite _ => .error .infinite
  | .finite negative units =>
    let n : Int := (units / one : Nat)
    .ok (if negative then -n else n)

/-- The greatest whole number that a double reaches. -/
def floor (x : Float) : Except NoWhole Int :=
  match datum x with
  | .notANumber => .error .notANumber
  | .infinite _ => .error .infinite
  | .finite negative units =>
    .ok (if negative then -((units + (one - 1)) / one : Nat) else (units / one : Nat))

/-- How often `y` goes into `x`, rounded down. The remainder is exact and the quotient is taken of
what it leaves of `x`, so that the quotient is near a whole number, and snaps to it. -/
def floorQuotient (x y : Float) : Except NoWhole Int := do
  let r := remainder x y
  let near := (x - r) / y
  let quotient := if r != 0.0 && (decide (y < 0.0) != decide (r < 0.0)) then near - 1.0 else near
  let below ← floor quotient
  return if quotient - Float.ofInt below > 0.5 then below + 1 else below

end Chip8.Binary64
