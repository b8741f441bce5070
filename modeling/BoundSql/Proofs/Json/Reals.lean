import BoundSql.Proofs.Json.Printing

/-!
# The texts of floating-point numbers

A finite floating-point number is written with a point or an exponent, and so its text is never read
as an integer: it is read as some floating-point number, or refused as out of range
(`Json.exists_numeral_real`).
-/

namespace BoundSql

namespace Layout

/-- Significant digits do not start with zero, unless the number is zero. -/
theorem significant_cases (d : Decimal) :
    significant d = (['0'], 0) ∨ ∃ c cs, (significant d).1 = c :: cs ∧ c ≠ '0' := by
  unfold significant
  dsimp only
  by_cases hzero : d.digits = 0
  · rw [if_pos hzero, hzero]
    exact .inl rfl
  · rw [if_neg hzero]
    rcases Json.toDigits_cases d.digits with h | ⟨c, cs, h, hc⟩
    · have hvalue := Json.decimalOf_toDigits d.digits
      rw [h] at hvalue
      exact absurd hvalue.symm hzero
    · refine .inr ⟨c, (cs.reverse.dropWhile (· == '0')).reverse, ?_, hc⟩
      rw [h, List.reverse_cons, List.dropWhile_append]
      split_ifs with hall
      · rw [List.isEmpty_iff.1 hall]
        simp [hc]
      · simp

end Layout

namespace Json

open Reader (bind_apply optional_of_some optional_of_none char_self char_of_ne)

/-! ### The parts of a numeral -/

/-- The text does not start with a digit. -/
def Halts (s : List Char) : Prop := ∀ c ∈ s.head?, c.isDigit = false

theorem halts_nil : Halts [] := by
  intro c hc
  cases hc

/-- The digits before the point: a single zero, or digits that do not start with zero. -/
def Whole (ds : List Char) : Prop :=
  (∀ c ∈ ds, c.isDigit = true) ∧ (ds = ['0'] ∨ ∃ c cs, ds = c :: cs ∧ c ≠ '0')

theorem Whole.eq_cons {ds : List Char} (h : Whole ds) : ∃ c cs, ds = c :: cs := by
  obtain ⟨-, rfl | ⟨c, cs, rfl, -⟩⟩ := h
  · exact ⟨_, _, rfl⟩
  · exact ⟨_, _, rfl⟩

theorem wholeDigits_append {ds s : List Char} (h : Whole ds) (hs : Halts s) :
    wholeDigits (ds ++ s) = some (ds, s) := by
  obtain ⟨hds, rfl | ⟨c, cs, rfl, hc⟩⟩ := h
  · rfl
  · obtain ⟨hdigit, hcs⟩ := List.forall_mem_cons.1 hds
    rw [wholeDigits, bind_apply, List.cons_append, Reader.satisfying, if_pos hdigit,
      Option.bind_some, if_neg hc, bind_apply, Reader.takeWhile_append hcs hs]
    rfl

/-- Reads the digits after the point. -/
def decimals : Reader (List Char) := do
  Reader.char '.'
  Reader.takeWhile1 Char.isDigit

theorem decimals_cons {cs s : List Char} (hne : cs ≠ []) (hcs : ∀ c ∈ cs, c.isDigit = true)
    (hs : Halts s) : decimals ('.' :: (cs ++ s)) = some (cs, s) := by
  rw [decimals, bind_apply, char_self, Option.bind_some, Reader.takeWhile1_append hne hcs hs]

/-- What is left of a numeral with a point or an exponent, behind its whole digits. -/
inductive Tail : List Char → Prop where
  | point {cs : List Char} (hne : cs ≠ []) (hcs : ∀ c ∈ cs, c.isDigit = true) : Tail ('.' :: cs)
  | exponent {cs es : List Char} {sign : Char} (hcs : ∀ c ∈ cs, c.isDigit = true)
    (hsign : sign = '+' ∨ sign = '-') (hne : es ≠ []) (hes : ∀ c ∈ es, c.isDigit = true) :
    Tail ((if cs.isEmpty then [] else '.' :: cs) ++ 'e' :: sign :: es)

theorem exponent_cons {es : List Char} {sign : Char} (hsign : sign = '+' ∨ sign = '-')
    (hne : es ≠ []) (hes : ∀ c ∈ es, c.isDigit = true) :
    ∃ n, exponent ('e' :: sign :: es) = some (n, []) := by
  have hdigits := Reader.takeWhile1_append hne hes halts_nil
  rw [List.append_nil] at hdigits
  have hoptional : Reader.optional (Reader.satisfying fun c => c == '+' || c == '-')
      (sign :: es) = some (some sign, es) := by
    refine optional_of_some ?_
    rcases hsign with rfl | rfl <;> rfl
  rw [exponent, bind_apply]
  change ∃ n, ((Reader.optional (Reader.satisfying fun c => c == '+' || c == '-')
    (sign :: es)).bind fun x => _) = some (n, [])
  rw [hoptional, Option.bind_some]
  change ∃ n, ((Reader.takeWhile1 Char.isDigit es).bind fun x => _) = some (n, [])
  rw [hdigits]
  exact ⟨_, rfl⟩

theorem Tail.halts {s : List Char} (h : Tail s) : Halts s := by
  intro c hc
  cases h with
  | point => exact Option.some.inj hc ▸ rfl
  | exponent =>
    split_ifs at hc
    · exact Option.some.inj hc ▸ rfl
    · exact Option.some.inj hc ▸ rfl

/-- **A numeral with a point or an exponent is floating point.** -/
theorem exists_numeral {ds s : List Char} (negative : Bool) (hds : Whole ds) (h : Tail s) :
    ∃ d, numeral ((if negative then ['-'] else []) ++ (ds ++ s)) =
      (real? negative d).map (·, []) := by
  have hsign : Reader.optional (Reader.char '-') ((if negative then ['-'] else []) ++ (ds ++ s)) =
      some (if negative then some () else none, ds ++ s) := by
    cases negative with
    | true => exact optional_of_some (char_self '-' (ds ++ s))
    | false =>
      obtain ⟨c, cs, rfl⟩ := hds.eq_cons
      refine optional_of_none (char_of_ne ?_ _)
      rintro rfl
      cases hds.1 '-' List.mem_cons_self
  have hisSome : (if negative then some () else none : Option Unit).isSome = negative := by
    cases negative <;> rfl
  -- the reader of a floating-point number
  have hreal (d : Decimal) : (liftM (real? negative d) : Reader Number) [] =
      (real? negative d).map (·, []) := by
    cases real? negative d <;> rfl
  rw [numeral, bind_apply, hsign, Option.bind_some, bind_apply, wholeDigits_append hds h.halts,
    Option.bind_some, bind_apply, hisSome]
  change ∃ d, ((Reader.optional decimals s).bind _) = _
  cases h with
  | @point cs hne hcs =>
    have hdecimals := decimals_cons hne hcs halts_nil
    rw [List.append_nil] at hdecimals
    rw [optional_of_some hdecimals, Option.bind_some, bind_apply]
    exact ⟨_, hreal _⟩
  | @exponent cs es sign hcs hmark hne hes =>
    obtain ⟨n, hn⟩ := exponent_cons hmark hne hes
    by_cases hempty : cs = []
    · subst hempty
      rw [List.isEmpty_nil, if_pos rfl, List.nil_append, optional_of_none rfl, Option.bind_some,
        bind_apply, optional_of_some hn]
      exact ⟨_, hreal _⟩
    · have hdecimals := decimals_cons hempty hcs (s := 'e' :: sign :: es)
        fun c hc => Option.some.inj hc ▸ rfl
      rw [if_neg (by simpa using hempty), List.cons_append, optional_of_some hdecimals,
        Option.bind_some, bind_apply, optional_of_some hn]
      exact ⟨_, hreal _⟩

/-! ### Printed numbers -/

theorem isDigit_replicate (n : Nat) : ∀ c ∈ List.replicate n '0', c.isDigit = true := by
  intro c hc
  rw [List.eq_of_mem_replicate hc]
  rfl

/-- Digits with a point. -/
theorem exists_positionally {ds : List Char} {e : Int} (h : Whole ds) (he : ds = ['0'] → e = 0) :
    ∃ ds' s, Layout.positionally true ds e = ds' ++ s ∧ Whole ds' ∧ Tail s := by
  obtain ⟨c, cs, hcons⟩ := h.eq_cons
  obtain ⟨hds, hcases⟩ := h
  simp only [Layout.positionally, if_true]
  split_ifs with hneg hlong
  · refine ⟨['0'], _, rfl, ⟨by simp, .inl rfl⟩, .point ?_ ?_⟩
    · simp [hcons]
    · exact List.forall_mem_append.2 ⟨isDigit_replicate _, hds⟩
  · refine ⟨_, _, rfl, ⟨List.forall_mem_append.2 ⟨hds, isDigit_replicate _⟩, ?_⟩, .point ?_ ?_⟩
    · rcases hcases with rfl | ⟨c, cs, rfl, hc⟩
      · simp [he rfl]
      · exact .inr ⟨c, _, rfl, hc⟩
    · simp
    · simp
  · refine ⟨_, _, rfl, ⟨fun c hc => hds c (List.mem_of_mem_take hc), ?_⟩, .point ?_ ?_⟩
    · rcases hcases with rfl | ⟨c, cs, rfl, hc⟩
      · simp at hlong
      · exact .inr ⟨c, _, rfl, hc⟩
    · simpa using hlong
    · exact fun c hc => hds c (List.mem_of_mem_drop hc)

/-- Digits with an exponent. -/
theorem exists_scientifically {ds : List Char} (h : Whole ds) (e : Int) :
    ∃ ds' s, Layout.scientifically ds e = ds' ++ s ∧ Whole ds' ∧ Tail s := by
  obtain ⟨c, cs, rfl⟩ := h.eq_cons
  obtain ⟨hc, hcs⟩ := List.forall_mem_cons.1 h.1
  have hne : Nat.toDigits 10 e.natAbs ≠ [] := by
    rcases toDigits_cases e.natAbs with h | ⟨c, cs, h, -⟩ <;> simp [h]
  have hsign : (if e < 0 then '-' else '+') = '+' ∨ (if e < 0 then '-' else '+') = '-' := by
    split_ifs <;> simp
  refine ⟨[c], _, List.append_assoc [c] _ _, ⟨by simpa using hc, ?_⟩,
    .exponent hcs hsign hne (isDigit_toDigits _)⟩
  by_cases hzero : c = '0'
  · exact .inl (by rw [hzero])
  · exact .inr ⟨c, [], rfl, hzero⟩

/-- The text of a finite number has a point or an exponent. -/
theorem exists_text_real {x : Binary64} (h : x.isFinite = true) :
    ∃ ds s, (Number.real x).text = (if x.isNegative then ['-'] else []) ++ (ds ++ s) ∧
      Whole ds ∧ Tail s := by
  let d := Layout.significant (Decimal.shortest .toEven x)
  have htext : (Number.real x).text = (if x.isNegative then ['-'] else []) ++
      if Layout.json.positional d.2 then Layout.positionally true d.1 d.2
      else Layout.scientifically d.1 d.2 := if_pos h
  have hcases := Layout.significant_cases (Decimal.shortest .toEven x)
  have hwhole : Whole d.1 :=
    ⟨Layout.isDigit_significant _, hcases.imp_left fun hzero => congrArg Prod.fst hzero⟩
  have hzero : d.1 = ['0'] → d.2 = 0 := by
    intro hd
    rcases hcases with h | ⟨c, cs, hcons, hc⟩
    · exact congrArg Prod.snd h
    · exact absurd (List.cons.inj (hcons.symm.trans hd)).1 hc
  rw [htext]
  by_cases hpositional : Layout.json.positional d.2 = true
  · obtain ⟨ds, s, hds, hwhole, htail⟩ := exists_positionally hwhole hzero
    exact ⟨ds, s, by rw [if_pos hpositional, hds], hwhole, htail⟩
  · obtain ⟨ds, s, hds, hwhole, htail⟩ := exists_scientifically hwhole d.2
    exact ⟨ds, s, by rw [if_neg hpositional, hds], hwhole, htail⟩

/-- The text of a finite number begins with a sign or a digit. -/
theorem exists_head_real {x : Binary64} (h : x.isFinite = true) :
    ∃ c s, (Number.real x).text = c :: s ∧ (c = '-' ∨ c.isDigit = true) := by
  obtain ⟨ds, s, htext, hds, -⟩ := exists_text_real h
  rw [htext]
  cases x.isNegative with
  | true => exact ⟨'-', ds ++ s, rfl, .inl rfl⟩
  | false =>
    obtain ⟨c, cs, rfl⟩ := hds.eq_cons
    exact ⟨c, cs ++ s, rfl, .inr (hds.1 c List.mem_cons_self)⟩

/-- **The text of a finite number is read as floating point, or not at all.** -/
theorem exists_numeral_real {x : Binary64} (h : x.isFinite = true) :
    ∃ d, numeral (Number.real x).text = (real? x.isNegative d).map (·, []) := by
  obtain ⟨ds, s, htext, hds, hs⟩ := exists_text_real h
  rw [htext]
  exact exists_numeral x.isNegative hds hs

end Json

end BoundSql
