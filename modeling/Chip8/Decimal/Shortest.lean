import Chip8.Decimal.Fixed

/-!
# `Chip8.Decimal.Shortest` — doubles in the fewest digits that read back

A decimal reads back as a double when it lies in the interval of numbers that round to it. Of the
grids of one, two, … seventeen digits the first is taken that has a point in the interval, and on it
the point nearest to the double; of two equally near the even one.

## Contents
- **Interval.** `Interval`, `intervalOf`: the numbers that round to a double, in quarter units.
- **Search.** `onGrid?`, `shortestDigits`.
- **Text.** `Layout`, `positional` and `shortest`.
-/

namespace Chip8.Decimal

open Text

/-! ## Interval -/

/-- The numbers that round to one double, in quarters of a unit; `closed` when its ends do too. -/
structure Interval where
  low : Nat
  high : Nat
  closed : Bool

/-- Whether `n` quarters of a unit times `scale` lie in the interval. -/
def Interval.contains (i : Interval) (n scale : Nat) : Bool :=
  if i.closed then i.low * scale ≤ n && n ≤ i.high * scale
  else i.low * scale < n && n < i.high * scale

/-- The interval of the double with `units` units. It reaches half way to the neighbours; the lower
neighbour of a power of two is at half the distance. -/
def intervalOf (units : Nat) : Interval :=
  let shift := units.log2 - 52
  let gap := 1 <<< shift
  let atPower := shift != 0 && units == 1 <<< units.log2
  { low := 4 * units - (if atPower then gap else 2 * gap)
    high := 4 * units + 2 * gap
    closed := (units >>> shift) % 2 == 0 }

/-! ## Search -/

/-- The number of `count` digits, as a multiple of a power of ten, that is nearest to the double with
`units` units among those that read back as it. -/
def onGrid? (units : Nat) (count : Nat) : Option (Nat × Int) :=
  let k := magnitude units Binary64.one
  let up := (count : Int) - 1 - k
  -- The grid point `n` stands for `n · down / scale` units.
  let scale := tenTo up.toNat
  let down := tenTo (-up).toNat * Binary64.one
  let below := units * scale / down
  let inside (n : Nat) : Bool := (intervalOf units).contains (4 * n * down) scale
  match inside below, inside (below + 1) with
  | true, true => some (roundDiv (units * scale) down, -up)
  | true, false => some (below, -up)
  | false, true => some (below + 1, -up)
  | false, false => none

/-- The fewest digits that read back as the double with `units` units, without trailing zeros, and
the power of ten of the last. -/
def shortestDigits (units : Nat) : String × Int :=
  match (List.range 17).findSome? (fun d => onGrid? units (d + 1)) with
  | some (n, e) =>
    let ds := digits 10 .lower n
    let kept := String.ofList (ds.toList.reverse.dropWhile (· == '0')).reverse
    (kept, e + (ds.length - kept.length : Nat))
  | none => ("0", 0)

/-! ## Text -/

/-- Where positional notation is used: for first digits at the powers of ten from `least` to below
`limit`. -/
structure Layout where
  least : Int
  limit : Int

/-- Numbers from `10 ^ -4` to below `10 ^ 16` are written without an exponent. -/
def plainLayout : Layout := ⟨-4, 16⟩

/-- Digits whose last stands at the power `e`, written with a point and no exponent. -/
def positional (ds : String) (e : Int) : String :=
  if 0 ≤ e then ds ++ String.ofList (List.replicate e.toNat '0') ++ ".0"
  else pointed false (-e).toNat ds

/-- The double with `units` units in the fewest digits that read back; a whole number keeps one
decimal. -/
def shortest (layout : Layout) (units : Nat) : String :=
  if units = 0 then "0.0" else
    let (ds, e) := shortestDigits units
    let k := e + ds.length - 1
    if layout.least ≤ k && k < layout.limit then positional ds e
    else pointed false (ds.length - 1) ds ++ exponentText 'e' k

end Chip8.Decimal
