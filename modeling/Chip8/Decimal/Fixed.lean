import Chip8.Decimal.Binary64
import Chip8.Decimal.Rounding
import Chip8.Text.Radix

/-!
# `Chip8.Decimal.Fixed` — doubles with a given number of decimals or digits

The value is taken exactly, so only the last digit is rounded, and a half goes to the even digit.

## Contents
- **Places.** `fixed`: a given number of digits after the point.
- **Digits.** `leadingDigits`: a given number of significant digits, with the power of ten of the
  first.
- **Scientific.** `scientific`: one digit before the point and an exponent.
-/

namespace Chip8.Decimal

open Text

/-! ## Places -/

/-- Puts a point before the last `places` of some digits, at least one digit before it. `keepPoint`
keeps a point that nothing follows. -/
def pointed (keepPoint : Bool) (places : Nat) (ds : String) : String :=
  let cs := (padStart (places + 1) '0' ds).toList
  let whole := String.ofList (cs.take (cs.length - places))
  let rest := String.ofList (cs.drop (cs.length - places))
  if places = 0 && !keepPoint then whole else whole ++ "." ++ rest

/-- The value of `units` units of a double with `places` digits after the point. -/
def fixed (keepPoint : Bool) (places units : Nat) : String :=
  pointed keepPoint places (digits 10 .lower (roundDiv (units * tenTo places) Binary64.one))

/-! ## Digits -/

/-- The greatest `k` with `10 ^ k` at most `num / den`, for a positive quotient. -/
def magnitude (num den : Nat) : Int :=
  let k : Int := (digits 10 .lower num).length - (digits 10 .lower den).length
  if num * tenTo (-k).toNat < den * tenTo k.toNat then k - 1 else k

/-- The whole number of `count` digits that is nearest to `num / den` when its first digit is put at
a power of ten, and that power. A quotient of zero has zero digits at the power zero. -/
def leadingDigits (count num den : Nat) : Nat × Int :=
  if num = 0 then (0, 0) else
    let k := magnitude num den
    let up := (count : Int) - 1 - k
    let n := roundDiv (num * tenTo up.toNat) (den * tenTo (-up).toNat)
    if n = tenTo count then (tenTo (count - 1), k + 1) else (n, k)

/-! ## Scientific -/

/-- An exponent with its sign and at least two digits. -/
def exponentText (mark : Char) (k : Int) : String :=
  String.singleton mark ++ (if k < 0 then "-" else "+")
    ++ padStart 2 '0' (digits 10 .lower k.natAbs)

/-- The value of `units` units of a double as one digit, `places` more digits and an exponent. -/
def scientific (keepPoint : Bool) (mark : Char) (places units : Nat) : String :=
  let (n, k) := leadingDigits (places + 1) units Binary64.one
  pointed keepPoint places (padStart (places + 1) '0' (digits 10 .lower n)) ++ exponentText mark k

end Chip8.Decimal
