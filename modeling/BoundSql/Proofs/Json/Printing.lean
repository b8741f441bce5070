import BoundSql.Json.Printer
import BoundSql.Proofs.Json.Texts
import Mathlib.Data.List.Forall2

/-!
# Printing and reading back

`Json.ofText?_text` says that the compact text of a document is read as the document, if its
containers do not nest too deep and its numbers are read back (`Json.Legible`).  Strings always are,
and so are integers that 64 bits hold; a floating-point number may be read as a neighbour, since
reading rounds more than once.
-/

namespace BoundSql

/-- A list is read if each of its elements is. -/
theorem mapM_eq_some_iff {α β : Type} {f : α → Option β} {as : List α} {bs : List β} :
    as.mapM f = some bs ↔ List.Forall₂ (fun a b => f a = some b) as bs := by
  induction as generalizing bs with
  | nil =>
    rw [List.mapM_nil, List.forall₂_nil_left_iff]
    exact ⟨fun h => (Option.some.inj h).symm, fun h => h ▸ rfl⟩
  | cons a as ih =>
    simp only [List.mapM_cons, Option.bind_eq_bind, Option.bind_eq_some_iff, Option.pure_def,
      Option.some.injEq, List.forall₂_cons_left_iff, ih]
    constructor
    · rintro ⟨b, hb, bs, hbs, rfl⟩
      exact ⟨b, bs, hb, hbs, rfl⟩
    · rintro ⟨b, bs, hb, hbs, rfl⟩
      exact ⟨b, hb, bs, hbs, rfl⟩

namespace Json

open Reader (orElse_apply map_apply bind_apply char_self char_of_ne)

/-! ### Strings -/

/-- Two hexadecimal digits write a control character, or any other of ASCII. -/
theorem numberOf_hexDigit : ∀ n < 0x80,
    ['0', '0', hexDigit (n / 16), hexDigit (n % 16)].all (Text.isDigitOf 16) = true ∧
      Text.numberOf 16 ['0', '0', hexDigit (n / 16), hexDigit (n % 16)] = n := by
  decide

/-- A character is read back from the way it stands in a string. -/
theorem units_escape (c : Char) (s : List Char) :
    units (escape c ++ s) = (units s).map fun (us, r) => (c.toNat :: us, r) := by
  unfold escape
  split
  · exact units_escaped rfl s
  · exact units_escaped rfl s
  · exact units_escaped rfl s
  · exact units_escaped rfl s
  · exact units_escaped rfl s
  · exact units_escaped rfl s
  · exact units_escaped rfl s
  · rename_i hquote hslash _ _ _ _ _
    split_ifs with hcontrol
    · obtain ⟨hdigits, hnumber⟩ := numberOf_hexDigit c.toNat (by omega)
      simp only [List.cons_append, List.nil_append, units, if_pos hdigits, hnumber]
    · exact units_plain hquote (not_or.2 ⟨hcontrol, hslash⟩) s

theorem units_flatMap_escape (cs r : List Char) :
    units (cs.flatMap escape ++ '"' :: r) = some (cs.map Char.toNat, r) := by
  induction cs with
  | nil => rfl
  | cons c cs ih =>
    rw [List.flatMap_cons, List.append_assoc, units_escape, ih]
    rfl

/-- The code points of characters are no surrogates. -/
theorem paired?_toNat (cs : List Char) : paired? (cs.map Char.toNat) = some cs := by
  induction cs with
  | nil => rfl
  | cons c cs ih =>
    have hc : c.toNat < 0xd800 ∨ 0xe000 ≤ c.toNat := c.valid.imp_right fun h => h.1
    cases cs with
    | nil => rw [List.map_singleton, paired?, if_pos hc, Char.ofNat_toNat]
    | cons d cs =>
      rw [List.map_cons, List.map_cons, paired?, if_pos hc, ← List.map_cons, ih, Option.map_some,
        Char.ofNat_toNat]

/-- A string in quotes is read back. -/
theorem quoted_quote (s : String) : quoted (quote s) = some (s, []) := by
  rw [quote, quoted_cons, units_flatMap_escape, Option.bind_some, paired?_toNat, Option.map_some,
    String.ofList_toList]

/-! ### Numbers -/

theorem digitValue?_digitChar : ∀ n < 10, Text.digitValue? n.digitChar = some n := by
  decide

theorem decimalOf_toDigits (n : Nat) : Text.decimalOf (Nat.toDigits 10 n) = n := by
  induction n using Nat.strongRecOn with
  | ind n ih =>
    by_cases h : n < 10
    · rw [Nat.toDigits_of_lt_base h]
      simp only [Text.decimalOf, Text.numberOf, List.foldl_cons, List.foldl_nil,
        digitValue?_digitChar n h, Option.getD_some]
      omega
    · have hn := ih (n / 10) (by omega)
      have hlast := digitValue?_digitChar (n % 10) (Nat.mod_lt n (by decide))
      rw [Nat.toDigits_of_base_le (by decide) (Nat.le_of_not_lt h)]
      simp only [Text.decimalOf, Text.numberOf] at hn
      simp only [Text.decimalOf, Text.numberOf, List.foldl_append, hn, List.foldl_cons,
        List.foldl_nil, hlast, Option.getD_some]
      omega

/-- The digits of a number do not start with zero, unless it is zero. -/
theorem toDigits_cases (n : Nat) :
    Nat.toDigits 10 n = ['0'] ∨ ∃ c cs, Nat.toDigits 10 n = c :: cs ∧ c ≠ '0' := by
  induction n using Nat.strongRecOn with
  | ind n ih =>
    by_cases h : n < 10
    · rw [Nat.toDigits_of_lt_base h]
      by_cases hzero : n.digitChar = '0'
      · exact .inl (by rw [hzero])
      · exact .inr ⟨_, _, rfl, hzero⟩
    · -- The leading digits are those of a number other than zero.
      have hdiv : n / 10 ≠ 0 := by omega
      rw [Nat.toDigits_of_base_le (by decide) (Nat.le_of_not_lt h)]
      rcases ih (n / 10) (by omega) with hzero | ⟨c, cs, hcs, hc⟩
      · have hvalue := decimalOf_toDigits (n / 10)
        rw [hzero] at hvalue
        exact absurd hvalue.symm hdiv
      · exact .inr ⟨c, cs ++ [(n % 10).digitChar], by rw [hcs, List.cons_append], hc⟩

theorem isDigit_toDigits (n : Nat) : ∀ c ∈ Nat.toDigits 10 n, c.isDigit = true := fun _ hc =>
  Nat.isDigit_of_mem_toDigits (by decide) (by decide) hc

theorem wholeDigits_toDigits (n : Nat) :
    wholeDigits (Nat.toDigits 10 n) = some (Nat.toDigits 10 n, []) := by
  have hdigits := isDigit_toDigits n
  rcases toDigits_cases n with hzero | ⟨c, cs, hcs, hc⟩
  · rw [hzero]
    rfl
  · rw [hcs] at hdigits ⊢
    obtain ⟨hfirst, hrest⟩ := List.forall_mem_cons.1 hdigits
    have htake : cs.takeWhile Char.isDigit = cs := List.takeWhile_eq_self_iff.2 hrest
    have hdrop : cs.dropWhile Char.isDigit = [] := List.dropWhile_eq_nil_iff.2 hrest
    rw [wholeDigits, bind_apply, Reader.satisfying, if_pos hfirst, Option.bind_some, if_neg hc]
    change some (c :: cs.takeWhile Char.isDigit, cs.dropWhile Char.isDigit) = _
    rw [htake, hdrop]

/-- A number without fraction and exponent. -/
theorem numeral_whole {s digits : List Char} {sign : Option Unit} {n : Number}
    (hsign : Reader.optional (Reader.char '-') s = some (sign, digits))
    (hdigits : wholeDigits digits = some (digits, []))
    (hn : whole? sign.isSome digits = some n) : numeral s = some (n, []) := by
  rw [numeral, bind_apply, hsign, Option.bind_some, bind_apply, hdigits, Option.bind_some]
  change (liftM (whole? sign.isSome digits) : Reader Number) [] = _
  rw [hn]
  rfl

/-- No digit is a sign. -/
theorem optional_minus_toDigits (n : Nat) :
    Reader.optional (Reader.char '-') (Nat.toDigits 10 n) = some (none, Nat.toDigits 10 n) := by
  have hdigits := isDigit_toDigits n
  generalize Nat.toDigits 10 n = digits at hdigits ⊢
  cases digits with
  | nil => rfl
  | cons c cs =>
    have hc : c ≠ '-' := by
      rintro rfl
      cases hdigits '-' List.mem_cons_self
    rw [Reader.optional, orElse_apply, map_apply, char_of_ne hc]
    rfl

/-- Integers that 64 bits hold, with sign or without, are read back. -/
theorem numeral_integer {i : Int} (hmin : -0x8000000000000000 ≤ i)
    (hmax : i < 0x10000000000000000) :
    numeral (Number.integer i).text = some (.integer i, []) := by
  cases i with
  | ofNat n =>
    have hn : n < UInt64.size := by
      change (n : Int) < 0x10000000000000000 at hmax
      change n < 0x10000000000000000
      omega
    have htext : (Number.integer (Int.ofNat n)).text = Nat.toDigits 10 n := Nat.toList_repr
    have hwhole : whole? false (Nat.toDigits 10 n) = some (.integer (Int.ofNat n)) := by
      simp only [whole?, decimalOf_toDigits, Bool.false_eq_true, if_false, if_pos hn]
      rfl
    rw [htext]
    exact numeral_whole (optional_minus_toDigits n) (wholeDigits_toDigits n) hwhole
  | negSucc n =>
    have hn : 0 < n + 1 ∧ n + 1 ≤ 0x8000000000000000 := by omega
    have htext : (Number.integer (Int.negSucc n)).text = '-' :: Nat.toDigits 10 (n + 1) := by
      change ("-" ++ Nat.repr (n + 1)).toList = _
      rw [String.toList_append, Nat.toList_repr]
      rfl
    have hsign : Reader.optional (Reader.char '-') ('-' :: Nat.toDigits 10 (n + 1)) =
        some (some (), Nat.toDigits 10 (n + 1)) := by
      rw [Reader.optional, orElse_apply, map_apply, char_self]
      rfl
    have hwhole : whole? true (Nat.toDigits 10 (n + 1)) = some (.integer (Int.negSucc n)) := by
      simp only [whole?, decimalOf_toDigits, if_true, if_pos hn]
      rfl
    rw [htext]
    exact numeral_whole hsign (wholeDigits_toDigits (n + 1)) hwhole

/-! ### Documents -/

/-- Containers nest at most so deep, and all numbers are read back. -/
def Legible : Json → Nat → Prop
  | .number n, _ => numeral n.text = some (n, [])
  | .array _, 0 => False
  | .array items, depth + 1 => ∀ j ∈ items, j.Legible depth
  | .object _, 0 => False
  | .object ms, depth + 1 => ∀ m ∈ ms, m.2.Legible depth
  | _, _ => True

theorem compactItems_eq_flatMap (items : List Json) :
    compactItems items = items.flatMap fun j => ',' :: compact j := by
  induction items with
  | nil => rfl
  | cons j rest ih => rw [compactItems, ih, List.flatMap_cons, List.cons_append]

/-- The text of a member. -/
def compactMember (m : String × Json) : List Char := quote m.1 ++ ':' :: compact m.2

theorem compactMembers_eq_flatMap (ms : List (String × Json)) :
    compactMembers ms = ms.flatMap fun m => ',' :: compactMember m := by
  induction ms with
  | nil => rfl
  | cons m rest ih => rw [compactMembers, ih, List.flatMap_cons, List.cons_append]; rfl

/-- Texts of parts with nothing but commas in between. -/
theorem parts_of_forall₂ {α : Type} {R : α → List Char → Prop} {a : α} {as : List α}
    {t : List Char} {ts : List (List Char)} (h : List.Forall₂ R (a :: as) (t :: ts)) :
    Parts R (a :: as) (t ++ ts.flatMap fun t => ',' :: t) := by
  induction as generalizing a t ts with
  | nil =>
    obtain _ | ⟨ha, _ | _⟩ := h
    exact .one blank_nil ha blank_nil
  | cons b as ih =>
    obtain _ | ⟨ha, h⟩ := h
    cases h with
    | cons hb h => exact .more blank_nil ha blank_nil (List.cons_ne_nil b as) (ih (.cons hb h))

theorem parts_flatMap {α : Type} {R : α → List Char → Prop} {f : α → List Char} {a : α}
    {as : List α} (h : ∀ b ∈ a :: as, R b (f b)) :
    Parts R (a :: as) (f a ++ as.flatMap fun b => ',' :: f b) := by
  have hparts := parts_of_forall₂ (List.forall₂_map_right_iff.2 (List.forall₂_same.2 h))
  rwa [List.flatMap_map] at hparts

theorem word_of_ne {c : Char} (hn : c ≠ 'n') (ht : c ≠ 't') (hf : c ≠ 'f') (s : List Char) :
    word (c :: s) = none := by
  simp only [word, orElse_apply, bind_apply, Reader.exactly, char_of_ne hn, char_of_ne ht,
    char_of_ne hf, Option.bind_none, Option.or_none]

/-- What is read as a number is no word and no string. -/
theorem scalar_numeral {s : List Char} {n : Number} (h : numeral s = some (n, [])) :
    scalar s = some (.number n, []) := by
  cases s with
  | nil => cases h
  | cons c s =>
    have hne {d : Char} (hd : numeral (d :: s) = none) : c ≠ d := by
      rintro rfl
      cases hd.symm.trans h
    rw [scalar_apply, word_of_ne (hne rfl) (hne rfl) (hne rfl), quoted_of_ne (hne rfl), h]
    rfl

theorem scalar_quote (s : String) : scalar (quote s) = some (.string s, []) := by
  have hword : word (quote s) = none := rfl
  rw [scalar_apply, hword, quoted_quote]
  rfl

theorem writes_of_scalar {depth : Nat} {j : Json} {s : List Char} (h : scalar s = some (j, [])) :
    Writes depth j s := by
  cases depth with
  | zero => exact h
  | succ depth => exact .inl h

/-- **The compact text writes the document.** -/
theorem writes_compact {depth : Nat} {j : Json} (h : j.Legible depth) :
    Writes depth j (compact j) := by
  cases j with
  | null => exact writes_of_scalar rfl
  | boolean b => cases b <;> exact writes_of_scalar rfl
  | number n =>
    rw [Legible] at h
    exact writes_of_scalar (scalar_numeral h)
  | string s => exact writes_of_scalar (scalar_quote s)
  | array items =>
    -- The items are legible one level down, so the depth decreases and not the document.
    cases depth with
    | zero => exact h.elim
    | succ depth =>
      cases items with
      | nil => exact .inr (.inl ⟨[], [], rfl, rfl, .none blank_nil⟩)
      | cons j rest =>
        refine .inr (.inl ⟨j :: rest, _, rfl, rfl, ?_⟩)
        rw [compactItems_eq_flatMap]
        exact parts_flatMap fun j hj => writes_compact (h j hj)
  | object ms =>
    cases depth with
    | zero => exact h.elim
    | succ depth =>
      cases ms with
      | nil => exact .inr (.inr ⟨[], [], rfl, rfl, .none blank_nil⟩)
      | cons m rest =>
        refine .inr (.inr ⟨m :: rest, _, rfl, rfl, ?_⟩)
        rw [compactMembers_eq_flatMap]
        exact parts_flatMap (f := compactMember) fun m hm =>
          .mk (quoted_quote m.1) blank_nil blank_nil (writes_compact (h m hm))
termination_by depth

/-- **What is printed is read back.** -/
theorem ofText?_text {j : Json} (h : j.Legible maxDepth) : ofText? j.text = some j := by
  refine ofText?_of_textOf ⟨[], j.compact, [], ?_, blank_nil, writes_compact h, blank_nil⟩
  rw [text, List.append_nil, List.nil_append]

end Json

end BoundSql
