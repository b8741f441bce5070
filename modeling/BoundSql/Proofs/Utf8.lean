import BoundSql.Text.Utf8
import Mathlib.Data.List.Forall2
import Mathlib.Tactic.SplitIfs

/-!
# The table of UTF-8

Decoding goes by a table: the lead byte says how many bytes follow it, and in which range each of
them lies.  Encoding goes by arithmetic on the code point.  Here the two are compared: the bytes in
the ranges of the table are those that encode a character (`Utf8.utf8EncodeChar_codePoint`), and all
characters are encoded by such bytes (`Utf8.exists_line`).
-/

namespace BoundSql

namespace Utf8

/-! ### The bytes of a code point -/

/-- The bytes of a code point, as many as it needs. -/
def bytesOf (n : Nat) : List Nat :=
  if n ≤ 0x7f then [n]
  else if n ≤ 0x7ff then [n / 64 % 0x20 + 0xc0, n % 0x40 + 0x80]
  else if n ≤ 0xffff then [n / 4096 % 0x10 + 0xe0, n / 64 % 0x40 + 0x80, n % 0x40 + 0x80]
  else [n / 262144 % 0x08 + 0xf0, n / 4096 % 0x40 + 0x80, n / 64 % 0x40 + 0x80, n % 0x40 + 0x80]

theorem bytesOf_lt (n : Nat) : ∀ b ∈ bytesOf n, b < 256 := by
  unfold bytesOf
  split_ifs <;> simp only [List.forall_mem_cons, List.not_mem_nil, false_imp_iff, implies_true,
    and_true] <;> omega

theorem utf8EncodeChar_eq (c : Char) :
    String.utf8EncodeChar c = (bytesOf c.toNat).map UInt8.ofNat := by
  change (if c.toNat ≤ 0x7f then _ else if c.toNat ≤ 0x7ff then _ else
    if c.toNat ≤ 0xffff then _ else _) = _
  unfold bytesOf
  split_ifs <;> rfl

theorem toNat_utf8EncodeChar (c : Char) :
    (String.utf8EncodeChar c).map UInt8.toNat = bytesOf c.toNat := by
  rw [utf8EncodeChar_eq, List.map_map]
  refine (List.map_congr_left fun b hb => ?_).trans (List.map_id _)
  exact UInt8.toNat_ofNat_of_lt' (bytesOf_lt _ b hb)

theorem bytesOf_one {a : Nat} (h : a < 0x80) : bytesOf a = [a] :=
  if_pos (Nat.le_of_lt_succ h)

theorem bytesOf_two {a b : Nat} (ha : 2 ≤ a ∧ a < 32) (hb : b < 64) :
    bytesOf (a * 64 + b) = [0xc0 + a, 0x80 + b] := by
  rw [bytesOf, if_neg (by omega), if_pos (by omega)]
  simp only [List.cons.injEq, and_true]
  omega

theorem bytesOf_three {a b c : Nat} (ha : a < 16) (hb : b < 64) (hc : c < 64)
    (h : 0x800 ≤ (a * 64 + b) * 64 + c) :
    bytesOf ((a * 64 + b) * 64 + c) = [0xe0 + a, 0x80 + b, 0x80 + c] := by
  rw [bytesOf, if_neg (by omega), if_neg (by omega), if_pos (by omega)]
  simp only [List.cons.injEq, and_true]
  omega

theorem bytesOf_four {a b c d : Nat} (ha : a < 8) (hb : b < 64) (hc : c < 64) (hd : d < 64)
    (h : 0x10000 ≤ ((a * 64 + b) * 64 + c) * 64 + d) :
    bytesOf (((a * 64 + b) * 64 + c) * 64 + d) = [0xf0 + a, 0x80 + b, 0x80 + c, 0x80 + d] := by
  rw [bytesOf, if_neg (by omega), if_neg (by omega), if_neg (by omega)]
  simp only [List.cons.injEq, and_true]
  omega

/-! ### The table of followers -/

/-- The byte lies in the range. -/
def Within (range : UInt8 × UInt8) (b : UInt8) : Prop := range.1 ≤ b ∧ b ≤ range.2

/-- The range of a byte that the lead byte leaves free. -/
def tail : UInt8 × UInt8 := (0x80, 0xbf)

/-- The range after a lead byte of three; it excludes what fits fewer bytes, and surrogates. -/
def secondOfThree (lead : UInt8) : UInt8 × UInt8 :=
  (if lead = 0xe0 then 0xa0 else 0x80, if lead = 0xed then 0x9f else 0xbf)

/-- The range after a lead byte of four; it excludes what fits fewer bytes or is too large. -/
def secondOfFour (lead : UInt8) : UInt8 × UInt8 :=
  (if lead = 0xf0 then 0x90 else 0x80, if lead = 0xf4 then 0x8f else 0xbf)

/-- A line of the table: the ranges after a lead byte, by the number of bytes. -/
inductive Line (lead : UInt8) : List (UInt8 × UInt8) → Prop where
  | one (h : lead.toNat < 0x80) : Line lead []
  | two (h : 0xc2 ≤ lead.toNat) (h' : lead.toNat < 0xe0) : Line lead [tail]
  | three (h : 0xe0 ≤ lead.toNat) (h' : lead.toNat < 0xf0) :
    Line lead [secondOfThree lead, tail]
  | four (h : 0xf0 ≤ lead.toNat) (h' : lead.toNat < 0xf5) :
    Line lead [secondOfFour lead, tail, tail]

theorem Line.followers_eq {lead : UInt8} {ranges : List (UInt8 × UInt8)} (h : Line lead ranges) :
    followers lead = some ranges := by
  unfold followers
  cases h with
  | one h => exact if_pos h
  | two h h' =>
    simp only [UInt8.lt_iff_toNat_lt, UInt8.reduceToNat]
    rw [if_neg (by omega), if_neg (by omega), if_pos h']
    rfl
  | three h h' =>
    simp only [secondOfThree, UInt8.lt_iff_toNat_lt, ← UInt8.toNat_inj, UInt8.reduceToNat]
    split_ifs <;> first | rfl | omega
  | four h h' =>
    simp only [secondOfFour, UInt8.lt_iff_toNat_lt, ← UInt8.toNat_inj, UInt8.reduceToNat]
    split_ifs <;> first | rfl | omega

/-- The other bytes start no sequence. -/
theorem followers_eq_none {lead : UInt8}
    (h : 0x80 ≤ lead.toNat ∧ lead.toNat < 0xc2 ∨ 0xf5 ≤ lead.toNat) :
    followers lead = none := by
  unfold followers
  simp only [UInt8.lt_iff_toNat_lt, ← UInt8.toNat_inj, UInt8.reduceToNat]
  split_ifs <;> first | rfl | omega

theorem line_of_followers {lead : UInt8} {ranges : List (UInt8 × UInt8)}
    (h : followers lead = some ranges) : Line lead ranges := by
  have hline {ranges' : List (UInt8 × UInt8)} (h' : Line lead ranges') : Line lead ranges :=
    Option.some.inj (h'.followers_eq.symm.trans h) ▸ h'
  by_cases hone : lead.toNat < 0x80
  · exact hline (.one hone)
  by_cases hnone : lead.toNat < 0xc2 ∨ 0xf5 ≤ lead.toNat
  · cases (followers_eq_none (by omega)).symm.trans h
  by_cases htwo : lead.toNat < 0xe0
  · exact hline (.two (by omega) htwo)
  by_cases hthree : lead.toNat < 0xf0
  · exact hline (.three (by omega) hthree)
  · exact hline (.four (by omega) (by omega))

/-! ### The table and the encoder -/

theorem within_tail {b : UInt8} : Within tail b ↔ 0x80 ≤ b.toNat ∧ b.toNat ≤ 0xbf := by
  simp only [Within, tail, UInt8.le_iff_toNat_le, UInt8.reduceToNat]

theorem within_secondOfThree {lead b : UInt8} :
    Within (secondOfThree lead) b ↔ (0x80 ≤ b.toNat ∧ b.toNat ≤ 0xbf) ∧
      (lead.toNat = 0xe0 → 0xa0 ≤ b.toNat) ∧ (lead.toNat = 0xed → b.toNat ≤ 0x9f) := by
  simp only [Within, secondOfThree, UInt8.le_iff_toNat_le, ← UInt8.toNat_inj, UInt8.reduceToNat]
  split_ifs <;> simp only [UInt8.reduceToNat] <;> omega

theorem within_secondOfFour {lead b : UInt8} :
    Within (secondOfFour lead) b ↔ (0x80 ≤ b.toNat ∧ b.toNat ≤ 0xbf) ∧
      (lead.toNat = 0xf0 → 0x90 ≤ b.toNat) ∧ (lead.toNat = 0xf4 → b.toNat ≤ 0x8f) := by
  simp only [Within, secondOfFour, UInt8.le_iff_toNat_le, ← UInt8.toNat_inj, UInt8.reduceToNat]
  split_ifs <;> simp only [UInt8.reduceToNat] <;> omega

/-- The code point that a lead byte and the bytes after it stand for. -/
def codePoint (lead : UInt8) (bs : List UInt8) : Nat :=
  bs.foldl (fun acc b => acc * 64 + (b.toNat - 0x80)) (payload lead bs.length)

theorem codePoint_nil (lead : UInt8) : codePoint lead [] = lead.toNat := rfl

theorem codePoint_two (lead b : UInt8) :
    codePoint lead [b] = (lead.toNat - 0xc0) * 64 + (b.toNat - 0x80) := rfl

theorem codePoint_three (lead b c : UInt8) :
    codePoint lead [b, c] =
      ((lead.toNat - 0xe0) * 64 + (b.toNat - 0x80)) * 64 + (c.toNat - 0x80) := rfl

theorem codePoint_four (lead b c d : UInt8) :
    codePoint lead [b, c, d] =
      (((lead.toNat - 0xf0) * 64 + (b.toNat - 0x80)) * 64 + (c.toNat - 0x80)) * 64 +
        (d.toNat - 0x80) := rfl

/-- Bytes in the ranges of the table are those of a code point. -/
theorem bytesOf_codePoint {lead : UInt8} {ranges : List (UInt8 × UInt8)} {bs : List UInt8}
    (hline : Line lead ranges) (h : List.Forall₂ Within ranges bs) :
    (codePoint lead bs).isValidChar ∧
      bytesOf (codePoint lead bs) = (lead :: bs).map UInt8.toNat := by
  cases hline with
  | one hlead =>
    cases h
    rw [codePoint_nil]
    exact ⟨.inl (by omega), bytesOf_one hlead⟩
  | two hlo hhi =>
    obtain _ | ⟨hb, _ | _⟩ := h
    rw [within_tail] at hb
    rw [codePoint_two, bytesOf_two (by omega) (by omega)]
    refine ⟨.inl (by omega), ?_⟩
    simp only [List.map_cons, List.map_nil, List.cons.injEq, and_true]
    omega
  | three hlo hhi =>
    obtain _ | ⟨hb, _ | ⟨hc, _ | _⟩⟩ := h
    rw [within_secondOfThree] at hb
    rw [within_tail] at hc
    rw [codePoint_three, bytesOf_three (by omega) (by omega) (by omega) (by omega)]
    refine ⟨by unfold Nat.isValidChar; omega, ?_⟩
    simp only [List.map_cons, List.map_nil, List.cons.injEq, and_true]
    omega
  | four hlo hhi =>
    obtain _ | ⟨hb, _ | ⟨hc, _ | ⟨hd, _ | _⟩⟩⟩ := h
    rw [within_secondOfFour] at hb
    rw [within_tail] at hc hd
    rw [codePoint_four, bytesOf_four (by omega) (by omega) (by omega) (by omega) (by omega)]
    refine ⟨.inr (by omega), ?_⟩
    simp only [List.map_cons, List.map_nil, List.cons.injEq, and_true]
    omega

theorem toNat_ofNat {n : Nat} (h : n.isValidChar) : (Char.ofNat n).toNat = n := by
  rw [Char.ofNat, dif_pos h]
  rfl

theorem utf8EncodeChar_codePoint {lead : UInt8} {ranges : List (UInt8 × UInt8)}
    {bs : List UInt8} (hline : Line lead ranges) (h : List.Forall₂ Within ranges bs) :
    String.utf8EncodeChar (Char.ofNat (codePoint lead bs)) = lead :: bs := by
  obtain ⟨hvalid, hbytes⟩ := bytesOf_codePoint hline h
  rw [utf8EncodeChar_eq, toNat_ofNat hvalid, hbytes, List.map_map]
  exact (List.map_congr_left fun b _ => UInt8.ofNat_toNat).trans (List.map_id _)

/-- The bytes of a character lie in the ranges of the table. -/
theorem exists_line (c : Char) : ∃ lead bs ranges, String.utf8EncodeChar c = lead :: bs ∧
    Line lead ranges ∧ List.Forall₂ Within ranges bs ∧ codePoint lead bs = c.toNat := by
  have hbytes := toNat_utf8EncodeChar c
  have hvalid : c.toNat < 0xd800 ∨ 0xdfff < c.toNat ∧ c.toNat < 0x110000 := c.valid
  generalize String.utf8EncodeChar c = bytes at hbytes
  generalize c.toNat = n at hbytes hvalid
  unfold bytesOf at hbytes
  split_ifs at hbytes
  · simp only [List.map_eq_cons_iff, List.map_eq_nil_iff] at hbytes
    obtain ⟨a, _, rfl, ha, rfl⟩ := hbytes
    exact ⟨a, [], [], rfl, .one (by omega), .nil, ha⟩
  · simp only [List.map_eq_cons_iff, List.map_eq_nil_iff] at hbytes
    obtain ⟨a, _, rfl, ha, b, _, rfl, hb, rfl⟩ := hbytes
    refine ⟨a, [b], _, rfl, .two (by omega) (by omega), ?_, ?_⟩
    · exact .cons (within_tail.2 (by omega)) .nil
    · rw [codePoint_two]
      omega
  · simp only [List.map_eq_cons_iff, List.map_eq_nil_iff] at hbytes
    obtain ⟨a, _, rfl, ha, b, _, rfl, hb, c, _, rfl, hc, rfl⟩ := hbytes
    refine ⟨a, [b, c], _, rfl, .three (by omega) (by omega), ?_, ?_⟩
    · exact .cons (within_secondOfThree.2 (by omega)) (.cons (within_tail.2 (by omega)) .nil)
    · rw [codePoint_three]
      omega
  · simp only [List.map_eq_cons_iff, List.map_eq_nil_iff] at hbytes
    obtain ⟨a, _, rfl, ha, b, _, rfl, hb, c, _, rfl, hc, d, _, rfl, hd, rfl⟩ := hbytes
    refine ⟨a, [b, c, d], _, rfl, .four (by omega) (by omega), ?_, ?_⟩
    · exact .cons (within_secondOfFour.2 (by omega))
        (.cons (within_tail.2 (by omega)) (.cons (within_tail.2 (by omega)) .nil))
    · rw [codePoint_four]
      omega

/-- No range of the table is empty. -/
theorem Line.le {lead : UInt8} {ranges : List (UInt8 × UInt8)} (h : Line lead ranges) :
    ∀ r ∈ ranges, r.1 ≤ r.2 := by
  have htail : tail.1 ≤ tail.2 := by decide
  have hthree : (secondOfThree lead).1 ≤ (secondOfThree lead).2 := by
    by_cases h : lead = 0xe0
    · subst h
      decide
    · simp only [secondOfThree, if_neg h]
      split_ifs <;> decide
  have hfour : (secondOfFour lead).1 ≤ (secondOfFour lead).2 := by
    by_cases h : lead = 0xf0
    · subst h
      decide
    · simp only [secondOfFour, if_neg h]
      split_ifs <;> decide
  cases h <;> simp only [List.forall_mem_cons, List.not_mem_nil, false_imp_iff, implies_true,
    and_true, htail, hthree, hfour]

end Utf8

end BoundSql
