import BoundSql.Decimal.Basic
import BoundSql.Decimal.Binary64

/-!
# Decimals read by scaling

`Decimal.scaled` reads a decimal in steps that are each rounded to nearest: the digits become a
number, the power of ten becomes a number, and the first is multiplied or divided by the second.
Where both are exact, as for fifteen digits and powers up to `10 ^ 22`, the result is the number
nearest to the decimal; elsewhere it may be a neighbour of that, and a decimal just below the limit
of the range may become infinite.
-/

namespace BoundSql

namespace Decimal

/-- The largest exponent whose power of ten is finite. -/
def maxPower : Nat := 308

/-- The magnitude nearest to a power of ten. -/
def powerOfTen (n : Nat) : Nat := Binary64.ofDecimal 1 n

/-- Multiplies a finite magnitude by a power of ten; any but zero becomes infinite beyond the
largest finite power. -/
def scaleUp (x n : Nat) : Nat :=
  if x = 0 then 0
  else if n ≤ maxPower then Binary64.mulMagnitude x (powerOfTen n)
  else Binary64.infinityMagnitude

/-- Divides a finite magnitude by a power of ten, by the largest finite power at a time. -/
def scaleDown (x n : Nat) : Nat :=
  if x = 0 then 0
  else if n ≤ maxPower then Binary64.divMagnitude x (powerOfTen n)
  else scaleDown (Binary64.divMagnitude x (powerOfTen maxPower)) (n - maxPower)
termination_by n
decreasing_by
  have : 0 < maxPower := by decide
  omega

/-- The magnitude that scaling the digits gives. -/
def scaled (d : Decimal) : Nat :=
  let x := Binary64.ofDecimal d.digits 0
  if 0 ≤ d.exponent then scaleUp x d.exponent.toNat else scaleDown x (-d.exponent).toNat

/-! ### Zero -/

end Decimal

end BoundSql
