import BoundSql.Text.Digit

/-!
# Decimal numbers

A `Decimal` is a natural number times a power of ten.  `Decimal.ofLiteral` reads one from the digits
of a literal and keeps no more of them than 64 bits hold: from the first digit before the point that
does not fit, the digits up to the point only count as powers of ten; from the first one after the
point that does not fit, the digits are dropped.
-/

namespace BoundSql

/-- The number `digits · 10 ^ exponent`. -/
structure Decimal where
  digits : Nat
  exponent : Int
deriving DecidableEq, Repr

namespace Decimal

/-- The number `n` with a digit written after it. -/
def appendDigit (n : Nat) (c : Char) : Nat := n * 10 + (Text.digitValue? c).getD 0

/-- Writes the digits before the point after `n`, as long as 64 bits hold the number. -/
def takeWhole (n : Nat) : List Char → Decimal
  | [] => ⟨n, 0⟩
  | c :: cs =>
    let n' := appendDigit n c
    if n' < UInt64.size then takeWhole n' cs else ⟨n, cs.length + 1⟩

/-- Writes the digits after the point after those of `d`, as long as 64 bits hold the number. -/
def takeDecimals (d : Decimal) : List Char → Decimal
  | [] => d
  | c :: cs =>
    let n := appendDigit d.digits c
    if n < UInt64.size then takeDecimals ⟨n, d.exponent - 1⟩ cs else d

/-- The decimal of a literal with these digits before and after the point and this exponent. -/
def ofLiteral (whole decimals : List Char) (exponent : Int) : Decimal :=
  let d := takeDecimals (takeWhole 0 whole) decimals
  ⟨d.digits, d.exponent + exponent⟩

/-! ### Digits that fit -/

end Decimal

end BoundSql
