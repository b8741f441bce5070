import BoundSql.Text.Digit
import BoundSql.Text.Utf8
import Mathlib.Algebra.Order.Ring.Nat
import Mathlib.Tactic.NormNum.Basic

/-!
# The order of digits

Numbers with leading zeros are compared byte by byte as the numbers are (`compare_digits`), and so
is a number with one of more digits, as if it ended in zeros (`compare_digits_add`).
-/

namespace BoundSql

namespace Calendar

/-! ### Orders -/

/-- A quotient is compared before a remainder. -/
theorem compare_mul_add_int {a b : Int} {c d B : Nat} (hc : c < B) (hd : d < B) :
    compare (a * B + c) (b * B + d) = (compare a b).then (compare c d) := by
  have hcarry {a b : Int} (h : a < b) : a * B + B ≤ b * B := by
    have hle := Int.mul_le_mul_of_nonneg_right (Int.add_one_le_of_lt h) (Int.natCast_nonneg B)
    rwa [Int.add_mul, Int.one_mul] at hle
  rcases Int.lt_trichotomy a b with h | rfl | h
  · have := hcarry h
    rw [Int.compare_eq_lt.2 h, Int.compare_eq_lt.2 (by omega)]
    rfl
  · rw [Int.compare_eq_eq.2 rfl, Ordering.eq_then]
    rcases Nat.lt_trichotomy c d with h | rfl | h
    · rw [Nat.compare_eq_lt.2 h, Int.compare_eq_lt.2 (by omega)]
    · rw [Nat.compare_eq_eq.2 rfl, Int.compare_eq_eq.2 rfl]
    · rw [Nat.compare_eq_gt.2 h, Int.compare_eq_gt.2 (by omega)]
  · have := hcarry h
    rw [Int.compare_eq_gt.2 h, Int.compare_eq_gt.2 (by omega)]
    rfl

theorem compare_natCast (m n : Nat) : compare (m : Int) (n : Int) = compare m n := by
  rcases Nat.lt_trichotomy m n with h | rfl | h
  · rw [Nat.compare_eq_lt.2 h, Int.compare_eq_lt.2 (by omega)]
  · rw [Nat.compare_eq_eq.2 rfl, Int.compare_eq_eq.2 rfl]
  · rw [Nat.compare_eq_gt.2 h, Int.compare_eq_gt.2 (by omega)]

theorem compare_mul_add {a b c d B : Nat} (hc : c < B) (hd : d < B) :
    compare (a * B + c) (b * B + d) = (compare a b).then (compare c d) := by
  rw [← compare_natCast, ← compare_natCast a b, ← compare_mul_add_int hc hd]
  norm_cast

/-- Lists are compared by their beginnings first. -/
theorem compare_append {α : Type} [Ord α] {u v : List α} (h : u.length = v.length)
    (s t : List α) : compare (u ++ s) (v ++ t) = (compare u v).then (compare s t) := by
  induction u generalizing v with
  | nil =>
    obtain rfl := List.length_eq_zero_iff.1 h.symm
    rfl
  | cons a u ih =>
    cases v with
    | nil => cases h
    | cons b v =>
      rw [List.cons_append, List.cons_append, List.compare_cons_cons, List.compare_cons_cons,
        ih (Nat.succ.inj h), Ordering.then_assoc]

/-! ### Digits -/

/-- The byte of a digit. -/
def digitByte (n : Nat) : UInt8 := UInt8.ofNat (0x30 + n)

theorem utf8EncodeChar_digitChar :
    ∀ n < 10, String.utf8EncodeChar n.digitChar = [digitByte n] := by
  decide

theorem compare_digitByte : ∀ m < 10, ∀ n < 10,
    compare (digitByte m) (digitByte n) = compare m n := by
  decide

theorem compare_encode_cons (c : Char) (s t : List Char) :
    compare (Utf8.encode (c :: s)) (Utf8.encode (c :: t)) =
      compare (Utf8.encode s) (Utf8.encode t) := by
  rw [Utf8.encode_cons, Utf8.encode_cons, compare_append rfl, Std.compare_self, Ordering.eq_then]

/-- The bytes of a number with leading zeros. -/
def digits (w n : Nat) : List UInt8 := Utf8.encode (Text.padded w n)

theorem padded_succ (w n : Nat) :
    Text.padded (w + 2) n = Text.padded (w + 1) (n / 10) ++ [(n % 10).digitChar] := by
  unfold Text.padded
  by_cases h : n < 10
  · have hdiv : n / 10 = 0 := by omega
    have hmod : n % 10 = n := by omega
    simp only [hdiv, hmod, Nat.toDigits_of_lt_base h, Nat.toDigits_zero, List.length_singleton]
    simp [List.replicate_succ']
  · have hwidth (k : Nat) : w + 2 - (k + 1) = w + 1 - k := by omega
    simp only [Nat.toDigits_of_base_le (by decide : 1 < 10) (Nat.le_of_not_lt h),
      List.length_append, List.length_singleton, hwidth, List.append_assoc]

theorem digits_succ (w n : Nat) :
    digits (w + 2) n = digits (w + 1) (n / 10) ++ [digitByte (n % 10)] := by
  have hlast := utf8EncodeChar_digitChar (n % 10) (Nat.mod_lt n (by decide))
  rw [digits, padded_succ, Utf8.encode_append, digits, ← hlast]
  congr 1
  exact List.flatMap_singleton _ _

theorem digits_one {n : Nat} (h : n < 10) : digits 1 n = [digitByte n] := by
  rw [← utf8EncodeChar_digitChar n h, digits, Text.padded, Nat.toDigits_of_lt_base h]
  exact List.append_nil _

theorem length_digits {w n : Nat} (h : n < 10 ^ (w + 1)) : (digits (w + 1) n).length = w + 1 := by
  induction w generalizing n with
  | zero => rw [digits_one h, List.length_singleton]
  | succ w ih =>
    rw [digits_succ, List.length_append, ih (by omega), List.length_singleton]

/-- **Numbers of one width are compared by their digits.** -/
theorem compare_digits {w m n : Nat} (hm : m < 10 ^ (w + 1)) (hn : n < 10 ^ (w + 1)) :
    compare (digits (w + 1) m) (digits (w + 1) n) = compare m n := by
  induction w generalizing m n with
  | zero =>
    rw [digits_one hm, digits_one hn, List.compare_cons_cons, compare_digitByte m hm n hn,
      List.compare_nil_nil, Ordering.then_eq]
  | succ w ih =>
    have hm' : m / 10 < 10 ^ (w + 1) := by omega
    have hn' : n / 10 < 10 ^ (w + 1) := by omega
    have hmod (k : Nat) : k % 10 < 10 := Nat.mod_lt k (by decide)
    have hlength : (digits (w + 1) (m / 10)).length = (digits (w + 1) (n / 10)).length := by
      rw [length_digits hm', length_digits hn']
    rw [digits_succ, digits_succ, compare_append hlength, ih hm' hn', List.compare_cons_cons,
      compare_digitByte _ (hmod m) _ (hmod n), List.compare_nil_nil, Ordering.then_eq,
      ← compare_mul_add (hmod m) (hmod n), Nat.div_add_mod', Nat.div_add_mod']

theorem compare_padded_append {w m n : Nat} (hm : m < 10 ^ (w + 1)) (hn : n < 10 ^ (w + 1))
    (s t : List Char) :
    compare (Utf8.encode (Text.padded (w + 1) m ++ s)) (Utf8.encode (Text.padded (w + 1) n ++ t)) =
      (compare m n).then (compare (Utf8.encode s) (Utf8.encode t)) := by
  rw [Utf8.encode_append, Utf8.encode_append, ← compare_digits hm hn]
  exact compare_append (by rw [← digits, ← digits, length_digits hm, length_digits hn]) _ _

/-- The digits of a number are those of its quotient and of its remainder. -/
theorem digits_add (k j n : Nat) :
    digits (k + 1 + (j + 1)) n =
      digits (k + 1) (n / 10 ^ (j + 1)) ++ digits (j + 1) (n % 10 ^ (j + 1)) := by
  induction j generalizing n with
  | zero =>
    have h := digits_succ k n
    rwa [← digits_one (Nat.mod_lt n (by decide))] at h
  | succ j ih =>
    have hquotient : n / 10 / 10 ^ (j + 1) = n / 10 ^ (j + 2) := by
      rw [Nat.div_div_eq_div_mul, Nat.pow_succ' (n := j + 1)]
    have hremainder : n / 10 % 10 ^ (j + 1) = n % 10 ^ (j + 2) / 10 := by
      rw [Nat.pow_succ' (n := j + 1), Nat.mod_mul_right_div_self]
    have hlast : n % 10 = n % 10 ^ (j + 2) % 10 :=
      (Nat.mod_mod_of_dvd n ⟨10 ^ (j + 1), Nat.pow_succ'⟩).symm
    rw [digits_succ j, ← hremainder, ← hlast, ← List.append_assoc, ← hquotient, ← ih]
    exact digits_succ (k + 1 + j) n

/-- A number is compared with one of more digits as if it ended in zeros. -/
theorem compare_digits_add {k j m n : Nat} (hm : m < 10 ^ (k + 1))
    (hn : n < 10 ^ (k + 1 + (j + 1))) (hne : n % 10 ^ (j + 1) ≠ 0) :
    compare (digits (k + 1) m) (digits (k + 1 + (j + 1)) n) = compare (m * 10 ^ (j + 1)) n := by
  have hpos : 0 < 10 ^ (j + 1) := Nat.pow_pos (by decide)
  have hmod : n % 10 ^ (j + 1) < 10 ^ (j + 1) := Nat.mod_lt n hpos
  have hdiv : n / 10 ^ (j + 1) < 10 ^ (k + 1) :=
    Nat.div_lt_of_lt_mul (by rwa [Nat.mul_comm, ← Nat.pow_add])
  have hrest : compare [] (digits (j + 1) (n % 10 ^ (j + 1))) = .lt := by
    have hlength := length_digits hmod
    cases hd : digits (j + 1) (n % 10 ^ (j + 1)) with
    | nil =>
      rw [hd] at hlength
      cases hlength
    | cons b bs => rfl
  have hnumber : compare (m * 10 ^ (j + 1) + 0)
      (n / 10 ^ (j + 1) * 10 ^ (j + 1) + n % 10 ^ (j + 1)) =
        (compare m (n / 10 ^ (j + 1))).then .lt := by
    rw [compare_mul_add hpos hmod, Nat.compare_eq_lt.2 (Nat.pos_of_ne_zero hne)]
  rw [Nat.add_zero, Nat.div_add_mod'] at hnumber
  have happend := compare_append (u := digits (k + 1) m) (v := digits (k + 1) (n / 10 ^ (j + 1)))
    (by rw [length_digits hm, length_digits hdiv]) [] (digits (j + 1) (n % 10 ^ (j + 1)))
  rw [List.append_nil] at happend
  rw [digits_add, happend, compare_digits hm hdiv, hrest, hnumber]

end Calendar

end BoundSql
