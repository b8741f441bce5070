import BoundSql.Text.Reader
import Mathlib.Data.List.Forall2
import Mathlib.Data.List.TakeWhile

/-!
# What readers do on a text

Equations for the readers and the ways to put them together.  `Reader.many_append` says when a
reader takes text after text off the front of a row of them.
-/

namespace BoundSql

namespace Reader

variable {α β : Type}

theorem orElse_apply (p q : Reader α) (s : List Char) : (p <|> q) s = (p s).or (q s) := by
  change (p s).orElse (fun _ => q s) = _
  cases p s <;> rfl

theorem map_apply (f : α → β) (p : Reader α) (s : List Char) :
    (f <$> p) s = (p s).map fun x => (f x.1, x.2) := by
  change (p s).bind (fun x => some (f x.1, x.2)) = _
  cases p s <;> rfl

theorem bind_apply (p : Reader α) (f : α → Reader β) (s : List Char) :
    (p >>= f) s = (p s).bind fun x => f x.1 x.2 := rfl

theorem optional_of_some {p : Reader α} {s r : List Char} {a : α} (h : p s = some (a, r)) :
    optional p s = some (some a, r) := by
  rw [optional, orElse_apply, map_apply, h]
  rfl

theorem optional_of_none {p : Reader α} {s : List Char} (h : p s = none) :
    optional p s = some (none, s) := by
  rw [optional, orElse_apply, map_apply, h]
  rfl

/-! ### Characters -/

theorem satisfying_of_pos (ok : Char → Bool) {c : Char} (h : ok c = true) (s : List Char) :
    satisfying ok (c :: s) = some (c, s) := if_pos h

theorem satisfying_of_neg (ok : Char → Bool) {c : Char} (h : ok c = false) (s : List Char) :
    satisfying ok (c :: s) = none := if_neg (Bool.eq_false_iff.1 h)

theorem char_self (c : Char) (s : List Char) : char c (c :: s) = some ((), s) := by
  rw [char, bind_apply, satisfying_of_pos (· == c) (beq_self_eq_true c)]
  rfl

theorem char_of_ne {c c' : Char} (h : c' ≠ c) (s : List Char) : char c (c' :: s) = none := by
  rw [char, bind_apply, satisfying_of_neg (· == c) (beq_eq_false_iff_ne.2 h)]
  rfl

theorem exactly_append (cs s : List Char) : exactly cs (cs ++ s) = some ((), s) := by
  induction cs with
  | nil => rfl
  | cons c cs ih => rw [exactly, bind_apply, List.cons_append, char_self, Option.bind_some, ih]

theorem exactly_of_ne {c c' : Char} (h : c' ≠ c) (cs s : List Char) :
    exactly (c :: cs) (c' :: s) = none := by
  rw [exactly, bind_apply, char_of_ne h, Option.bind_none]

/-- A run of characters is taken up to a text that does not continue it. -/
theorem takeWhile_append {ok : Char → Bool} {cs s : List Char} (hcs : ∀ c ∈ cs, ok c = true)
    (hs : ∀ c ∈ s.head?, ok c = false) : takeWhile ok (cs ++ s) = some (cs, s) := by
  have hstop : s.takeWhile ok = [] ∧ s.dropWhile ok = s := by
    cases s with
    | nil => exact ⟨rfl, rfl⟩
    | cons c s =>
      have hc : ¬ok c = true := Bool.eq_false_iff.1 (hs c rfl)
      exact ⟨List.takeWhile_cons_of_neg hc, List.dropWhile_cons_of_neg hc⟩
  rw [takeWhile, List.takeWhile_append_of_pos hcs, List.dropWhile_append_of_pos hcs, hstop.1,
    hstop.2, List.append_nil]

theorem takeWhile1_append {ok : Char → Bool} {cs s : List Char} (hne : cs ≠ [])
    (hcs : ∀ c ∈ cs, ok c = true) (hs : ∀ c ∈ s.head?, ok c = false) :
    takeWhile1 ok (cs ++ s) = some (cs, s) := by
  cases cs with
  | nil => exact absurd rfl hne
  | cons c cs =>
    obtain ⟨hc, hcs⟩ := List.forall_mem_cons.1 hcs
    rw [takeWhile1, bind_apply, List.cons_append, satisfying_of_pos ok hc, Option.bind_some,
      bind_apply, takeWhile_append hcs hs]
    rfl

/-! ### Repetition -/

theorem manyUpTo_of_none {p : Reader α} {s : List Char} (h : p s = none) (n : Nat) :
    manyUpTo p n s = some ([], s) := by
  cases n with
  | zero => rfl
  | succ n =>
    rw [manyUpTo, orElse_apply, bind_apply, h]
    rfl

theorem manyUpTo_of_some {p : Reader α} {s s' r : List Char} {a : α} {as : List α} {n : Nat}
    (h : p s = some (a, s')) (hrest : manyUpTo p n s' = some (as, r)) :
    manyUpTo p (n + 1) s = some (a :: as, r) := by
  rw [manyUpTo, orElse_apply, bind_apply, h, Option.bind_some, bind_apply, hrest]
  rfl

theorem many_of_none {p : Reader α} {s : List Char} (h : p s = none) : many p s = some ([], s) :=
  manyUpTo_of_none h s.length

/-- The reader takes each of the texts off the front of anything that may follow it, and any of the
texts may follow. -/
structure Takes (R : α → List Char → Prop) (ok : List Char → Prop) (p : Reader α) : Prop where
  append {a : α} {t rest : List Char} (h : R a t) (hrest : ok rest) :
    p (t ++ rest) = some (a, rest)
  follows {a : α} {t : List Char} (h : R a t) (rest : List Char) : ok (t ++ rest)
  ne_nil {a : α} {t : List Char} (h : R a t) : t ≠ []

variable {R : α → List Char → Prop} {ok : List Char → Prop} {p : Reader α}

theorem Takes.length_le (hp : Takes R ok p) {as : List α} {ts : List (List Char)}
    (h : List.Forall₂ R as ts) : as.length ≤ ts.flatten.length := by
  induction h with
  | nil => exact Nat.zero_le _
  | cons ht _ ih =>
    have hpos := List.length_pos_of_ne_nil (hp.ne_nil ht)
    rw [List.length_cons, List.flatten_cons, List.length_append]
    omega

theorem Takes.follows_flatten (hp : Takes R ok p) {as : List α} {ts : List (List Char)}
    (h : List.Forall₂ R as ts) {rest : List Char} (hrest : ok rest) : ok (ts.flatten ++ rest) := by
  cases h with
  | nil => exact hrest
  | cons ht _ =>
    rw [List.flatten_cons, List.append_assoc]
    exact hp.follows ht _

/-- **Texts in a row are read one after the other**, up to where no more can be read. -/
theorem Takes.many_append (hp : Takes R ok p) {as : List α} {ts : List (List Char)}
    (h : List.Forall₂ R as ts) {rest : List Char} (hrest : ok rest) (hstop : p rest = none) :
    many p (ts.flatten ++ rest) = some (as, rest) := by
  have hmany {n : Nat} (hn : as.length ≤ n) :
      manyUpTo p n (ts.flatten ++ rest) = some (as, rest) := by
    induction h generalizing n with
    | nil => exact manyUpTo_of_none hstop n
    | cons ht hts ih =>
      cases n with
      | zero => exact absurd hn (Nat.not_succ_le_zero _)
      | succ n =>
        rw [List.flatten_cons, List.append_assoc]
        exact manyUpTo_of_some (hp.append ht (hp.follows_flatten hts hrest))
          (ih (Nat.le_of_succ_le_succ hn))
  refine hmany ((hp.length_le h).trans ?_)
  rw [List.length_append]
  omega

end Reader

end BoundSql
