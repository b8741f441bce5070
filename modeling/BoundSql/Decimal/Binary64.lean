/-!
# Binary floating-point numbers

A `Binary64` is the 64-bit interchange format given by its bits.  A finite number is
`± mantissa · 2 ^ exponent` with natural mantissa, and everything here is computed on that exact
value: `ofRatio` is the nearest number to a quotient of naturals, with ties to the even mantissa,
`ofDecimal` the nearest to `digits · 10 ^ exponent`, and `mulMagnitude` and `divMagnitude` the
nearest to a product and a quotient.

Magnitudes (the bits without the sign) are ordered as the numbers are, and the magnitude of
`m · 2 ^ q` with `q ≥ -1074` and `2 ^ 52 ≤ m ≤ 2 ^ 53` (or `q = -1074` and any smaller `m`) is
`(q + 1074) · 2 ^ 52 + m`, whether `m` needs a carry into the exponent or not.
-/

namespace BoundSql

/-- A number of the 64-bit binary interchange format. -/
structure Binary64 where
  /-- Sign bit, eleven bits of exponent, 52 bits of fraction. -/
  bits : UInt64
deriving DecidableEq, Inhabited, Repr

namespace Binary64

/-! ### Parts -/

/-- The bits without the sign bit. -/
def magnitude (x : Binary64) : Nat := x.bits.toNat % 0x8000000000000000

/-- The sign bit is set. -/
def isNegative (x : Binary64) : Bool := 0x8000000000000000 ≤ x.bits.toNat

/-- The magnitude of infinity; the magnitudes above it are those of NaN. -/
def infinityMagnitude : Nat := 2047 * 0x10000000000000

/-- Neither infinite nor NaN. -/
def isFinite (x : Binary64) : Bool := x.magnitude < infinityMagnitude

/-- Not a number. -/
def isNaN (x : Binary64) : Bool := infinityMagnitude < x.magnitude

/-- The mantissa and the exponent of a finite number with this magnitude. -/
def unpack (magnitude : Nat) : Nat × Int :=
  if magnitude < 0x10000000000000 then (magnitude, -1074)
  else (0x10000000000000 + magnitude % 0x10000000000000, magnitude / 0x10000000000000 - 1075)

/-- The number with this sign and this magnitude. -/
def ofMagnitude (negative : Bool) (magnitude : Nat) : Binary64 :=
  ⟨UInt64.ofNat ((if negative then 0x8000000000000000 else 0) + magnitude)⟩

/-- Infinity with this sign. -/
def infinity (negative : Bool) : Binary64 := ofMagnitude negative infinityMagnitude

/-- The quiet NaN without sign and payload. -/
def nan : Binary64 := ofMagnitude false (infinityMagnitude + 0x8000000000000)

/-! ### Rounding -/

/-- The natural number nearest to `a / b`, the even one of two. -/
def roundQuotient (a b : Nat) : Nat :=
  let q := a / b
  let r := a % b
  if 2 * r < b then q else if b < 2 * r then q + 1 else q + q % 2

/-- Numerator and denominator of `a / b · 2 ^ (-q)`. -/
def scale (a b : Nat) (q : Int) : Nat × Nat :=
  if 0 ≤ q then (a, b <<< q.toNat) else (a <<< (-q).toNat, b)

/-- The exponent that gives the quotient `a / b` a mantissa of 53 bits, or the least one. -/
def exponentFor (a b : Nat) : Int :=
  let q : Int := (a.log2 : Int) - b.log2 - 52
  let (n, d) := scale a b q
  max (-1074) (if n < 0x10000000000000 * d then q - 1 else q)

/-- The magnitude nearest to the quotient `a / b` of positive numbers, infinity included. -/
def ofRatio (a b : Nat) : Nat :=
  let q := exponentFor a b
  let (n, d) := scale a b q
  min infinityMagnitude ((q + 1074).toNat * 0x10000000000000 + roundQuotient n d)

/-- The magnitude nearest to `digits · 10 ^ exponent`.  Exponents that make the number infinite or
zero whatever its digits are decided without computing the power. -/
def ofDecimal (digits : Nat) (exponent : Int) : Nat :=
  if digits = 0 then 0
  else if 310 ≤ exponent then infinityMagnitude
  else if digits.log2 + exponent < -330 then 0
  else if 0 ≤ exponent then ofRatio (digits * Nat.pow 10 exponent.toNat) 1
  else ofRatio digits (Nat.pow 10 (-exponent).toNat)

/-- The magnitude nearest to the quotient `a / b · 2 ^ q`, for a positive `b`. -/
def ofQuotient (a b : Nat) (q : Int) : Nat :=
  if a = 0 then 0
  else
    let (n, d) := scale a b (-q)
    ofRatio n d

/-- The magnitude nearest to the product of two finite magnitudes. -/
def mulMagnitude (x y : Nat) : Nat :=
  let (m, p) := unpack x
  let (n, q) := unpack y
  ofQuotient (m * n) 1 (p + q)

/-- The magnitude nearest to the quotient of two finite magnitudes, for a second one that is not
zero. -/
def divMagnitude (x y : Nat) : Nat :=
  let (m, p) := unpack x
  let (n, q) := unpack y
  ofQuotient m n (p - q)

/-- The number nearest to an integer. -/
def ofInt (i : Int) : Binary64 := ofMagnitude (i < 0) (ofDecimal i.natAbs 0)

/-! ### Single precision -/

/-- The number that 32 bits of the single-precision format stand for, which is always exact. -/
def ofSingle (bits : UInt32) : Binary64 :=
  let negative := 0x80000000 ≤ bits.toNat
  let magnitude := bits.toNat % 0x80000000
  let exponent := magnitude / 0x800000
  let fraction := magnitude % 0x800000
  if exponent = 255 then
    if fraction = 0 then infinity negative else nan
  else if magnitude = 0 then ofMagnitude negative 0
  else if exponent = 0 then ofMagnitude negative (ofRatio fraction (1 <<< 149))
  else ofMagnitude negative ((exponent + 896) * 0x10000000000000 + fraction * 0x20000000)

/-! ### Magnitudes read back -/

theorem toNat_bits_ofMagnitude {negative : Bool} {m : Nat} (h : m < 0x8000000000000000) :
    (ofMagnitude negative m).bits.toNat = (if negative then 0x8000000000000000 else 0) + m := by
  simp only [ofMagnitude, UInt64.toNat_ofNat']
  cases negative <;> simp only [Bool.false_eq_true, ↓reduceIte] <;> omega

theorem magnitude_ofMagnitude {negative : Bool} {m : Nat} (h : m < 0x8000000000000000) :
    (ofMagnitude negative m).magnitude = m := by
  rw [magnitude, toNat_bits_ofMagnitude h]
  cases negative <;> simp only [Bool.false_eq_true, ↓reduceIte] <;> omega

end Binary64

end BoundSql
