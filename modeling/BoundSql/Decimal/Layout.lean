import BoundSql.Decimal.Shortest

/-!
# The text of a floating-point number

A number is written with its shortest digits.  A `Layout` says how the digits are laid out: where
positional notation ends, whether a whole number keeps `.0`, and how a tie between two equally
short decimals is broken.  `Layout.plain` never uses an exponent; `Layout.json` is the layout of
numbers in a JSON document.
-/

namespace BoundSql

/-- How the shortest digits of a number are laid out. -/
structure Layout where
  /-- Numbers with this decimal exponent (of the first digit) are written without an exponent. -/
  positional : Int → Bool
  /-- Whole numbers end in `.0`. -/
  keepsPoint : Bool
  /-- How a tie between two equally short decimals is broken. -/
  tie : Tie

namespace Layout

/-- Never an exponent, no point after a whole number, and a tie goes up. -/
def plain : Layout := ⟨fun _ => true, false, .up⟩

/-- From `0.00001` up to sixteen digits before the point positional, always with a point, and an
exponent beyond; a tie goes to the even digit. -/
def json : Layout := ⟨fun e => -5 ≤ e && e ≤ 15, true, .toEven⟩

/-- The digits of a decimal without trailing zeros, and the exponent of its first digit. -/
def significant (d : Decimal) : List Char × Int :=
  let digits := Nat.toDigits 10 d.digits
  if d.digits = 0 then (digits, 0)
  else ((digits.reverse.dropWhile (· == '0')).reverse, d.exponent + digits.length - 1)

/-- Digits with the point after the digit of exponent zero. -/
def positionally (keepsPoint : Bool) (digits : List Char) (exponent : Int) : List Char :=
  if exponent < 0 then
    '0' :: '.' :: (List.replicate (-exponent - 1).toNat '0' ++ digits)
  else
    let whole := exponent.toNat + 1
    if digits.length ≤ whole then
      digits ++ List.replicate (whole - digits.length) '0' ++ (if keepsPoint then ['.', '0'] else [])
    else digits.take whole ++ '.' :: digits.drop whole

/-- The point after the first digit, then the exponent with its sign. -/
def scientifically (digits : List Char) (exponent : Int) : List Char :=
  let fraction := digits.drop 1
  digits.take 1 ++ (if fraction.isEmpty then [] else '.' :: fraction) ++
    'e' :: (if exponent < 0 then '-' else '+') :: Nat.toDigits 10 exponent.natAbs

/-- The text of a finite number. -/
def finite (l : Layout) (x : Binary64) : List Char :=
  let (digits, exponent) := significant (Decimal.shortest l.tie x)
  (if x.isNegative then ['-'] else []) ++
    if l.positional exponent then positionally l.keepsPoint digits exponent
    else scientifically digits exponent

/-! ### First characters -/

/-- A whole number or a fraction begins with a digit. -/
theorem positionally_eq_cons {digits : List Char} (h : ∀ c ∈ digits, c.isDigit = true)
    (exponent : Int) :
    ∃ c cs, positionally false digits exponent = c :: cs ∧ c.isDigit = true := by
  unfold positionally
  split
  · exact ⟨_, _, rfl, rfl⟩
  · cases digits with
    | nil =>
      refine ⟨'0', List.replicate exponent.toNat '0', ?_, rfl⟩
      simp [List.replicate_succ]
    | cons c cs =>
      have hc := h c List.mem_cons_self
      dsimp only
      split
      · exact ⟨c, _, rfl, hc⟩
      · exact ⟨c, _, rfl, hc⟩

theorem isDigit_significant (d : Decimal) : ∀ c ∈ (significant d).1, c.isDigit = true := by
  have hdigits (c : Char) (hc : c ∈ Nat.toDigits 10 d.digits) : c.isDigit = true :=
    Nat.isDigit_of_mem_toDigits (by decide) (by decide) hc
  unfold significant
  dsimp only
  split
  · exact hdigits
  · intro c hc
    have hkept := (List.dropWhile_sublist _).subset (List.mem_reverse.1 hc)
    exact hdigits c (List.mem_reverse.1 hkept)

/-- The text of a finite number begins with a sign or a digit. -/
theorem finite_plain_eq_cons (x : Binary64) :
    ∃ c cs, plain.finite x = c :: cs ∧ (c = '-' ∨ c.isDigit = true) := by
  let d := significant (Decimal.shortest .up x)
  have hfinite : plain.finite x =
      (if x.isNegative then ['-'] else []) ++ positionally false d.1 d.2 := rfl
  obtain ⟨c, cs, h, hc⟩ := positionally_eq_cons (isDigit_significant _) d.2
  rw [hfinite, h]
  cases x.isNegative with
  | true => exact ⟨'-', c :: cs, rfl, .inl rfl⟩
  | false => exact ⟨c, cs, rfl, .inr hc⟩

end Layout

/-- The text of any number: finite ones in the plain layout, and names for the others. -/
def Binary64.display (x : Binary64) : String :=
  if x.isNaN then "NaN"
  else if x.isFinite then String.ofList (Layout.plain.finite x)
  else if x.isNegative then "-inf" else "inf"

end BoundSql
