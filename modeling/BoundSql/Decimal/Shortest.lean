import BoundSql.Decimal.Basic
import BoundSql.Decimal.Binary64

/-!
# The fewest digits that read back

`Decimal.shortest` writes a finite number with the fewest significant digits that read back as the
number.  For one digit, two digits, and so on, the two neighbours of the exact value with that many
digits are tried; of two that read back the nearer is taken, and a tie is broken by a `Tie`.  With
all digits of the exact value the lower neighbour is the value itself, so the search always ends.
-/

namespace BoundSql

/-- Which of two equally near decimals is taken. -/
inductive Tie where
  /-- The one with the even last digit. -/
  | toEven
  /-- The larger one. -/
  | up
deriving DecidableEq, Repr

namespace Decimal

/-- The magnitude that the decimal reads as. -/
def magnitude (d : Decimal) : Nat := Binary64.ofDecimal d.digits d.exponent

/-- The decimal reads as `x`, but for the sign. -/
def readsAs (d : Decimal) (x : Binary64) : Bool := d.magnitude == x.magnitude

/-- The exact value of a finite number, but for the sign. -/
def exact (x : Binary64) : Decimal :=
  let (m, q) := Binary64.unpack x.magnitude
  if 0 ≤ q then ⟨m <<< q.toNat, 0⟩ else ⟨m * Nat.pow 5 (-q).toNat, q⟩

/-- The number of decimal digits. -/
def length (d : Decimal) : Nat := (Nat.toDigits 10 d.digits).length

/-- The neighbour to take when the last `dropped` digits of `d` are dropped, if one of the two
neighbours reads as `x`. -/
def neighbour? (tie : Tie) (x : Binary64) (d : Decimal) (dropped : Nat) : Option Decimal :=
  let unit := Nat.pow 10 dropped
  let kept := d.digits / unit
  let rest := d.digits % unit
  let lower : Decimal := ⟨kept, d.exponent + dropped⟩
  let upper : Decimal := ⟨kept + 1, d.exponent + dropped⟩
  match lower.readsAs x, upper.readsAs x with
  | true, true =>
    if 2 * rest < unit then some lower
    else if unit < 2 * rest then some upper
    else
      match tie with
      | .up => some upper
      | .toEven => some (if kept % 2 = 0 then lower else upper)
  | true, false => some lower
  | false, true => some upper
  | false, false => none

/-- The shortest decimal that reads as `x`, but for the sign. -/
def shortest (tie : Tie) (x : Binary64) : Decimal :=
  let d := exact x
  let n := d.length
  ((List.range n).findSome? fun i => neighbour? tie x d (n - (i + 1))).getD d

end Decimal

end BoundSql
