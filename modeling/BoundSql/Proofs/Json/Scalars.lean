import BoundSql.Json.Reader
import BoundSql.Proofs.Readers
import Mathlib.Tactic.SplitIfs
import Mathlib.Tactic.Tauto

/-!
# The end of a scalar

A scalar has no end of its own, so its reader has to stop at whatever may follow it.  A reader of
words or numbers is `Json.Local`: what it reads and whether it fails does not depend on what
follows.  A string ends with its quote.  `Json.scalar_append` says that a scalar is read alike
whatever follows it.
-/

namespace BoundSql

namespace Json

open Reader (orElse_apply map_apply bind_apply char_self char_of_ne)

/-- The character ends a scalar. -/
def ends (c : Char) : Bool := isSpace c || c == ',' || c == ']' || c == '\x7d'

/-- What may follow a scalar: nothing, or a character that ends it. -/
def Ended (s : List Char) : Prop := ∀ c ∈ s.head?, ends c = true

/-- White space only. -/
def Blank (s : List Char) : Prop := ∀ c ∈ s, isSpace c = true

theorem blank_nil : Blank [] := fun _ h => absurd h List.not_mem_nil

/-! ### Readers that do not depend on what follows -/

/-- The reader does on a text what it does if something that ends a scalar follows. -/
def Local {α : Type} (p : Reader α) : Prop :=
  ∀ s rest, Ended rest → p (s ++ rest) = (p s).map fun x => (x.1, x.2 ++ rest)

section Local

variable {α β : Type}

theorem local_pure (a : α) : Local (pure a : Reader α) := fun _ _ _ => rfl

theorem local_liftM (o : Option α) : Local (liftM o : Reader α) := fun _ _ _ => by
  cases o <;> rfl

theorem local_bind {p : Reader α} {f : α → Reader β} (hp : Local p) (hf : ∀ a, Local (f a)) :
    Local (p >>= f) := by
  intro s rest hrest
  rw [bind_apply, bind_apply, hp s rest hrest]
  cases p s with
  | none => rfl
  | some x => exact hf x.1 x.2 rest hrest

theorem local_orElse {p q : Reader α} (hp : Local p) (hq : Local q) : Local (p <|> q) := by
  intro s rest hrest
  rw [orElse_apply, orElse_apply, hp s rest hrest]
  cases p s with
  | none => exact hq s rest hrest
  | some x => rfl

theorem local_optional {p : Reader α} (hp : Local p) : Local (Reader.optional p) :=
  local_orElse (local_bind hp fun _ => local_pure _) (local_pure _)

theorem local_satisfying {ok : Char → Bool} (h : ∀ c, ends c = true → ok c = false) :
    Local (Reader.satisfying ok) := by
  intro s rest hrest
  cases s with
  | nil =>
    cases rest with
    | nil => rfl
    | cons c cs =>
      have hc : ok c = false := h c (hrest c rfl)
      simp only [List.nil_append, Reader.satisfying, hc, Bool.false_eq_true, if_false,
        Option.map_none]
  | cons c cs =>
    cases hc : ok c <;>
      simp only [List.cons_append, Reader.satisfying, hc, Bool.false_eq_true, if_false, if_true,
        Option.map_none, Option.map_some]

theorem local_char {c : Char} (h : ends c = false) : Local (Reader.char c) := by
  refine local_bind (local_satisfying fun c' hc' => ?_) fun _ => local_pure _
  exact beq_eq_false_iff_ne.2 fun heq => by rw [heq, h] at hc'; cases hc'

theorem local_exactly {cs : List Char} (h : cs.any ends = false) :
    Local (Reader.exactly cs) := by
  induction cs with
  | nil => exact local_pure ()
  | cons c cs ih =>
    rw [List.any_cons, Bool.or_eq_false_iff] at h
    exact local_bind (local_char h.1) fun _ => ih h.2

theorem local_takeWhile {ok : Char → Bool} (h : ∀ c, ends c = true → ok c = false) :
    Local (Reader.takeWhile ok) := by
  intro s rest hrest
  suffices hs : (s ++ rest).takeWhile ok = s.takeWhile ok ∧
      (s ++ rest).dropWhile ok = s.dropWhile ok ++ rest from
    congrArg some (Prod.ext hs.1 hs.2)
  induction s with
  | nil =>
    cases rest with
    | nil => exact ⟨rfl, rfl⟩
    | cons c cs =>
      have hc : ¬ok c = true := Bool.eq_false_iff.1 (h c (hrest c rfl))
      exact ⟨List.takeWhile_cons_of_neg hc, List.dropWhile_cons_of_neg hc⟩
  | cons c cs ih =>
    by_cases hc : ok c = true
    · rw [List.cons_append, List.takeWhile_cons_of_pos hc, List.takeWhile_cons_of_pos hc,
        List.dropWhile_cons_of_pos hc, List.dropWhile_cons_of_pos hc, ih.1, ih.2]
      exact ⟨rfl, rfl⟩
    · rw [List.cons_append, List.takeWhile_cons_of_neg hc, List.takeWhile_cons_of_neg hc,
        List.dropWhile_cons_of_neg hc, List.dropWhile_cons_of_neg hc]
      exact ⟨rfl, rfl⟩

end Local

/-! ### Scalars -/

/-- The characters that end a scalar. -/
def endings : List Char := [' ', '\t', '\n', '\r', ',', ']', '\x7d']

theorem mem_of_ends {c : Char} (h : ends c = true) : c ∈ endings := by
  simp only [ends, isSpace, Bool.or_eq_true, beq_iff_eq] at h
  simp only [endings, List.mem_cons, List.not_mem_nil, or_false]
  tauto

theorem eq_false_of_ends {ok : Char → Bool} (h : endings.any ok = false) (c : Char)
    (hc : ends c = true) : ok c = false :=
  Bool.eq_false_iff.2 (List.any_eq_false.1 h c (mem_of_ends hc))

theorem local_isDigit : ∀ c, ends c = true → Char.isDigit c = false :=
  eq_false_of_ends (by decide)

theorem local_takeWhile1_isDigit : Local (Reader.takeWhile1 Char.isDigit) :=
  local_bind (local_satisfying local_isDigit) fun _ =>
    local_bind (local_takeWhile local_isDigit) fun _ => local_pure _

theorem local_wholeDigits : Local wholeDigits := by
  refine local_bind (local_satisfying local_isDigit) fun c => ?_
  split_ifs
  · exact local_pure _
  · exact local_bind (local_takeWhile local_isDigit) fun _ => local_pure _

theorem local_exponent : Local exponent :=
  local_bind (local_satisfying (eq_false_of_ends (by decide))) fun _ =>
    local_bind (local_optional (local_satisfying (eq_false_of_ends (by decide)))) fun _ =>
      local_bind local_takeWhile1_isDigit fun _ => local_pure _

/-- A number ends where something that ends a scalar follows. -/
theorem local_numeral : Local numeral := by
  refine local_bind (local_optional (local_char (by decide))) fun sign => ?_
  refine local_bind local_wholeDigits fun digits => ?_
  refine local_bind (local_optional (local_bind (local_char (by decide)) fun _ =>
    local_takeWhile1_isDigit)) fun fraction => ?_
  refine local_bind (local_optional local_exponent) fun power => ?_
  cases fraction <;> cases power <;> exact local_liftM _

/-- An escape of one letter. -/
theorem units_escaped {c x : Char} (h : escaped? c = some x) (s : List Char) :
    units ('\\' :: c :: s) = (units s).map fun (us, r) => (x.toNat :: us, r) := by
  have hu : c ≠ 'u' := by
    rintro rfl
    cases h
  rw [units, h]
  exact fun _ _ _ _ _ hc _ => hu hc

/-- A character that stands for itself. -/
theorem units_plain {c : Char} (hquote : c ≠ '"') (h : ¬(c.toNat < 0x20 ∨ c = '\\'))
    (s : List Char) : units (c :: s) = (units s).map fun (us, r) => (c.toNat :: us, r) := by
  have hslash : c ≠ '\\' := fun hc => h (.inr hc)
  rw [units, if_neg h]
  · exact hquote
  · exact fun _ _ _ _ _ hc _ => hslash hc
  · exact fun _ _ hc _ => hslash hc

/-- A string ends with its closing quote, whatever follows. -/
theorem units_append {s : List Char} {us : List Nat} {r : List Char} (h : units s = some (us, r))
    (rest : List Char) : units (s ++ rest) = some (us, r ++ rest) := by
  fun_induction units s generalizing us r with
  | case1 => cases h
  | case2 s =>
    cases h
    rfl
  | case3 a b c d s hdigits ih =>
    obtain ⟨x, hx, heq⟩ := Option.map_eq_some_iff.1 h
    cases heq
    simp only [List.cons_append, units, if_pos hdigits, ih hx, Option.map_some]
  | case4 => cases h
  | case5 c s _ x hescaped ih =>
    obtain ⟨y, hy, heq⟩ := Option.map_eq_some_iff.1 h
    cases heq
    rw [List.cons_append, List.cons_append, units_escaped hescaped, ih hy, Option.map_some]
  | case6 => cases h
  | case7 => cases h
  | case8 c s hquote _ _ hplain ih =>
    obtain ⟨y, hy, heq⟩ := Option.map_eq_some_iff.1 h
    cases heq
    rw [List.cons_append, units_plain hquote hplain, ih hy, Option.map_some]

theorem quoted_of_ne {c : Char} (h : c ≠ '"') (s : List Char) : quoted (c :: s) = none := by
  change (Reader.char '"' (c :: s)).bind _ = none
  rw [char_of_ne h]
  rfl

theorem quoted_cons (s : List Char) :
    quoted ('"' :: s) =
      (units s).bind fun x => (paired? x.1).map fun cs => (String.ofList cs, x.2) := by
  change ((units s).bind fun x => ((liftM (paired? x.1) : Reader (List Char)) x.2).bind
    fun y => some (String.ofList y.1, y.2)) = _
  refine congrArg _ (funext fun x => ?_)
  cases paired? x.1 <;> rfl

theorem quoted_append {s : List Char} {t : String} {r : List Char} (h : quoted s = some (t, r))
    (rest : List Char) : quoted (s ++ rest) = some (t, r ++ rest) := by
  cases s with
  | nil => cases h
  | cons c s =>
    by_cases hc : c = '"'
    · subst hc
      rw [quoted_cons, Option.bind_eq_some_iff] at h
      obtain ⟨x, hx, h⟩ := h
      obtain ⟨cs, hcs, heq⟩ := Option.map_eq_some_iff.1 h
      cases heq
      rw [List.cons_append, quoted_cons, units_append hx, Option.bind_some, hcs]
      rfl
    · rw [quoted_of_ne hc] at h
      cases h

/-- The words that are scalars. -/
def word : Reader Json :=
  (do Reader.exactly ['n', 'u', 'l', 'l']; return .null) <|>
  (do Reader.exactly ['t', 'r', 'u', 'e']; return .boolean true) <|>
  (do Reader.exactly ['f', 'a', 'l', 's', 'e']; return .boolean false)

theorem local_word : Local word :=
  local_orElse (local_bind (local_exactly (by decide)) fun _ => local_pure _)
    (local_orElse (local_bind (local_exactly (by decide)) fun _ => local_pure _)
      (local_bind (local_exactly (by decide)) fun _ => local_pure _))

theorem scalar_apply (s : List Char) :
    scalar s = (word s).or (((quoted s).map fun x => (.string x.1, x.2)).or
      ((numeral s).map fun x => (.number x.1, x.2))) := by
  simp only [scalar, word, orElse_apply, map_apply, Option.or_assoc]

/-- A number does not start with a quote. -/
theorem numeral_quote (s : List Char) : numeral ('"' :: s) = none := rfl

/-- **A scalar ends where something that ends a scalar follows.** -/
theorem scalar_append {s : List Char} {j : Json} (h : scalar s = some (j, [])) {rest : List Char}
    (hrest : Ended rest) : scalar (s ++ rest) = some (j, rest) := by
  rw [scalar_apply] at h ⊢
  rw [local_word s rest hrest]
  cases hword : word s with
  | some x =>
    rw [hword, Option.some_or] at h
    cases h
    rfl
  | none =>
    rw [hword, Option.none_or] at h
    rw [Option.map_none, Option.none_or]
    cases hquoted : quoted s with
    | some x =>
      obtain ⟨t, r⟩ := x
      rw [hquoted] at h
      cases h
      rw [quoted_append hquoted]
      rfl
    | none =>
      rw [hquoted, Option.map_none, Option.none_or] at h
      obtain ⟨⟨n, r⟩, hx, heq⟩ := Option.map_eq_some_iff.1 h
      cases heq
      have hnone : quoted (s ++ rest) = none := by
        cases s with
        | nil => cases hx
        | cons c s =>
          refine quoted_of_ne ?_ _
          rintro rfl
          cases (numeral_quote s).symm.trans hx
      rw [hnone, local_numeral s rest hrest, hx]
      rfl

end Json

end BoundSql
