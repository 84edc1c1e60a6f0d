/-!
# `Chip8.Decimal.Rounding` — quotients rounded to the nearest whole number

## Contents
- **Rounding.** `roundDiv`: the whole number nearest to a quotient; a half goes to the even one.
- **Scaling.** `tenTo`: the powers of ten.
-/

namespace Chip8.Decimal

/-- The whole number nearest to `num / den`; of two equally near the even one. -/
def roundDiv (num den : Nat) : Nat :=
  let q := num / den
  let twice := 2 * (num % den)
  if twice < den || (twice == den && q % 2 == 0) then q else q + 1

/-- A power of ten. -/
def tenTo (k : Nat) : Nat := Nat.pow 10 k

end Chip8.Decimal
