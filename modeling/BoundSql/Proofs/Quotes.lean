import BoundSql.Proofs.Exact
import Mathlib.Data.List.Induction

/-!
# Placeholders and quotes

The scanner knows no rule for a quote character that is doubled inside its quotes.  It leaves the
quotes at the first of the two and enters them again at the second, and nothing is counted in
between.  So a text is a row of stretches, each plain or in quotes of its own (`Stretch`), and what
is counted are the question marks of the plain ones.  `countIn_outside_quotes` is the main
statement; it also says which texts end outside quotes, and how the count of two texts in a row
follows from where the first one ends.
-/

namespace BoundSql

namespace Placeholder

/-! ### Stretches -/

/-- The characters that close the quotes they open. -/
def quotes : List Char := ['\x27', '\x22', '\x60']

/-- The text with each `q` in it written twice. -/
def doubled (q : Char) (s : List Char) : List Char :=
  s.flatMap fun c => if c = q then [q, q] else [c]

theorem doubled_of_not_mem {q : Char} {s : List Char} (h : q ∉ s) : doubled q s = s := by
  induction s with
  | nil => rfl
  | cons c s ih =>
    rw [doubled, List.flatMap_cons, if_neg (Ne.symm (List.ne_of_not_mem_cons h)), ← doubled,
      ih (List.not_mem_of_not_mem_cons h), List.singleton_append]

/-- A stretch of a text. -/
inductive Stretch where
  /-- No quotes open in it. -/
  | plain (s : List Char) (h : ∀ c ∈ s, c ∉ quotes ∧ c ≠ '[')
  /-- A text between two quote characters, which are doubled inside. -/
  | quoted (q : Char) (h : q ∈ quotes) (s : List Char)
  /-- A text between square brackets, which cannot be escaped inside. -/
  | bracketed (s : List Char) (h : ']' ∉ s)

namespace Stretch

/-- The characters of a stretch. -/
def text : Stretch → List Char
  | plain s _ => s
  | quoted q _ s => q :: (doubled q s ++ [q])
  | bracketed s _ => '[' :: (s ++ [']'])

/-- The characters of a stretch that are in no quotes. -/
def outside : Stretch → List Char
  | plain s _ => s
  | quoted .. | bracketed .. => []

/-- Stretches in a row. -/
def join (ss : List Stretch) : String := String.ofList (ss.flatMap text)

end Stretch

/-! ### Scanning from inside quotes -/

theorem closing?_of_mem_quotes {q : Char} (h : q ∈ quotes) : closing? q = some q := by
  simp only [quotes, List.mem_cons, List.not_mem_nil, or_false] at h
  exact if_pos h

theorem closing?_eq_none_iff {c : Char} : closing? c = none ↔ c ∉ quotes ∧ c ≠ '[' := by
  simp only [closing?, quotes, List.mem_cons, List.not_mem_nil, or_false]
  split_ifs with hq hb
  · exact iff_of_false nofun fun h => h.1 hq
  · exact iff_of_false nofun fun h => h.2 hb
  · exact iff_of_true rfl ⟨hq, hb⟩

/-- What opens quotes is a quote character, or a bracket. -/
theorem closing?_eq_some {o c : Char} (h : closing? o = some c) :
    (o ∈ quotes ∧ c = o) ∨ (o = '[' ∧ c = ']') := by
  by_cases hq : o ∈ quotes
  · rw [closing?_of_mem_quotes hq] at h
    exact .inl ⟨hq, (Option.some.inj h).symm⟩
  by_cases hb : o = '['
  · subst hb
    exact .inr ⟨rfl, (Option.some.inj h).symm⟩
  · cases (closing?_eq_none_iff.2 ⟨hq, hb⟩).symm.trans h

/-- Inside quotes nothing counts. -/
theorem count_inside (close c : Char) (s : List Char) :
    count (some close) (c :: s) = count (step (some close) c) s := by
  rw [count, if_neg (fun h => Option.some_ne_none close h.1), Nat.zero_add]

theorem step_close (close : Char) : step (some close) close = none := if_pos rfl

theorem step_of_ne {close c : Char} (h : c ≠ close) : step (some close) c = some close := if_neg h

/-- The text is in quotes to its end. -/
structure Inside (close : Char) (s : List Char) : Prop where
  after_eq : after (some close) s = some close
  count_eq : count (some close) s = 0

theorem inside_of_not_mem {close : Char} {s : List Char} (h : close ∉ s) : Inside close s := by
  induction s with
  | nil => exact ⟨rfl, rfl⟩
  | cons c s ih =>
    obtain ⟨hafter, hcount⟩ := ih (List.not_mem_of_not_mem_cons h)
    have hstep := step_of_ne (Ne.symm (List.ne_of_not_mem_cons h))
    exact ⟨by rw [after_cons, hstep, hafter], by rw [count_inside, hstep, hcount]⟩

/-- The quotes that a doubled quote character closes it opens again. -/
theorem inside_doubled {q : Char} (hq : q ∈ quotes) (s : List Char) : Inside q (doubled q s) := by
  have hmark : q ≠ mark := by
    rintro rfl
    exact absurd hq (by decide)
  have hopen : step none q = some q := closing?_of_mem_quotes hq
  induction s with
  | nil => exact ⟨rfl, rfl⟩
  | cons c s ih =>
    obtain ⟨hafter, hcount⟩ := ih
    rw [doubled, List.flatMap_cons, ← doubled]
    by_cases hc : c = q
    · rw [if_pos hc]
      constructor
      · simp only [List.cons_append, List.nil_append, after_cons, step_close, hopen, hafter]
      · simp only [List.cons_append, List.nil_append, count_inside, step_close, count, hmark,
          and_false, if_false, hopen, hcount]
    · rw [if_neg hc, List.singleton_append]
      exact ⟨by rw [after_cons, step_of_ne hc, hafter],
        by rw [count_inside, step_of_ne hc, hcount]⟩

/-- What is in quotes ends with them, and has no placeholders. -/
theorem Inside.closed {o close : Char} (ho : closing? o = some close) {s : List Char}
    (hs : Inside close s) :
    after none (o :: (s ++ [close])) = none ∧ count none (o :: (s ++ [close])) = 0 := by
  have hmark : o ≠ mark := by
    rintro rfl
    cases ho
  have hopen : step none o = some close := ho
  constructor
  · rw [after_cons, hopen, after_append, hs.after_eq]
    exact step_close close
  · rw [count, if_neg (fun h => hmark h.2), hopen, count_append, hs.count_eq, hs.after_eq,
      count_inside, count]

/-! ### Counting -/

/-- Without quotes, each question mark counts. -/
theorem count_of_no_quote {s : List Char} (h : ∀ c ∈ s, closing? c = none) :
    count none s = s.count mark := by
  induction s with
  | nil => rfl
  | cons c s ih =>
    have hc : step none c = none := h c List.mem_cons_self
    rw [count, hc, ih fun d hd => h d (List.mem_cons_of_mem c hd), List.count_cons, Nat.add_comm]
    simp only [true_and, beq_iff_eq]

/-- A stretch ends outside quotes, and its question marks there count. -/
theorem scan_stretch (s : Stretch) :
    after none s.text = none ∧ count none s.text = s.outside.count mark := by
  cases s with
  | plain s h =>
    have hs : ∀ c ∈ s, closing? c = none := fun c hc => closing?_eq_none_iff.2 (h c hc)
    exact ⟨after_of_no_quote hs, count_of_no_quote hs⟩
  | quoted q h s => exact (inside_doubled h s).closed (closing?_of_mem_quotes h)
  | bracketed s h => exact (inside_of_not_mem h).closed rfl

theorem scan_stretches (ss : List Stretch) :
    after none (ss.flatMap Stretch.text) = none ∧
      count none (ss.flatMap Stretch.text) = (ss.flatMap Stretch.outside).count mark := by
  induction ss with
  | nil => exact ⟨rfl, rfl⟩
  | cons s ss ih =>
    obtain ⟨hafter, hcount⟩ := scan_stretch s
    rw [List.flatMap_cons, List.flatMap_cons, after_append, count_append, List.count_append, hafter,
      hcount, ih.1, ih.2]
    exact ⟨rfl, rfl⟩

/-- The text behind the first `c`, which is empty if there is no `c`. -/
def behind (c : Char) (t : List Char) : List Char := (t.dropWhile (· != c)).drop 1

/-- From inside quotes, what counts is behind their end. -/
theorem count_some (close : Char) (t : List Char) :
    count (some close) t = count none (behind close t) := by
  induction t with
  | nil => rfl
  | cons c t ih =>
    rw [count_inside, behind]
    by_cases hc : c = close
    · have hstop : ¬(c != close) = true := by rw [hc, bne_self_eq_false]; exact Bool.false_ne_true
      rw [List.dropWhile_cons_of_neg (p := (· != close)) hstop, List.drop_one, List.tail_cons, hc,
        step_close]
    · have hskip : (c != close) = true := bne_iff_ne.2 hc
      rw [List.dropWhile_cons_of_pos (p := (· != close)) hskip, step_of_ne hc, ih, behind]

/-! ### All texts -/

/-- A text is a row of stretches, behind which quotes may be left open. -/
inductive Divided : List Char → Option Char → Prop where
  | closed (ss : List Stretch) : Divided (ss.flatMap Stretch.text) none
  | opened (ss : List Stretch) {o close : Char} (ho : closing? o = some close) {body : List Char}
    (hbody : close ∉ body) : Divided (ss.flatMap Stretch.text ++ o :: body) (some close)

/-- The quotes that are left open are those that the scanner ends in. -/
theorem Divided.after_eq {s : List Char} {state : Option Char} (h : Divided s state) :
    after none s = state := by
  cases h with
  | closed ss => exact (scan_stretches ss).1
  | opened ss ho hbody =>
    have hopen : step none _ = some _ := ho
    rw [after_append, (scan_stretches ss).1, after_cons, hopen]
    exact (inside_of_not_mem hbody).after_eq

/-- The stretch that is complete at the end of its quotes. -/
theorem exists_stretch {o close : Char} (ho : closing? o = some close) {body : List Char}
    (hbody : close ∉ body) : ∃ s : Stretch, s.text = o :: (body ++ [close]) := by
  rcases closing?_eq_some ho with ⟨hq, rfl⟩ | ⟨rfl, rfl⟩
  · exact ⟨.quoted close hq body, by rw [Stretch.text, doubled_of_not_mem hbody]⟩
  · exact ⟨.bracketed body hbody, rfl⟩

/-- **Each text is divided so**, character by character as it is scanned. -/
theorem divided (s : List Char) : Divided s (after none s) := by
  induction s using List.reverseRecOn with
  | nil => exact .closed []
  | append_singleton s c ih =>
    rw [after_append]
    generalize after none s = state at ih ⊢
    change Divided (s ++ [c]) (step state c)
    cases ih with
    | closed ss =>
      change Divided _ (closing? c)
      cases hc : closing? c with
      | none =>
        have hplain : ∀ d ∈ [c], d ∉ quotes ∧ d ≠ '[' := by
          intro d hd
          rw [List.mem_singleton.1 hd]
          exact closing?_eq_none_iff.1 hc
        have h := Divided.closed (ss ++ [.plain [c] hplain])
        rwa [List.flatMap_append, List.flatMap_singleton, Stretch.text] at h
      | some close => exact .opened ss hc List.not_mem_nil
    | @opened ss o close ho body hbody =>
      rw [List.append_assoc, List.cons_append]
      by_cases hc : c = close
      · obtain ⟨t, ht⟩ := exists_stretch ho hbody
        have h := Divided.closed (ss ++ [t])
        rw [List.flatMap_append, List.flatMap_singleton, ht] at h
        rwa [hc, step_close]
      · rw [step_of_ne hc]
        refine .opened ss ho fun h => ?_
        rcases List.mem_append.1 h with h | h
        · exact hbody h
        · exact hc (List.mem_singleton.1 h).symm

theorem divided_iff {s : List Char} {state : Option Char} :
    Divided s state ↔ after none s = state :=
  ⟨Divided.after_eq, fun h => h ▸ divided s⟩

/-- **What counts is outside quotes.**  In a row of stretches these are the question marks of the
plain ones; the texts that end outside quotes are these rows, and the others have an open quote
behind such a row.  Behind a text that ends outside quotes another text counts as it does alone,
and behind one that ends inside quotes it counts from the end of the quotes on. -/
theorem countIn_outside_quotes :
    (∀ ss : List Stretch, countIn (Stretch.join ss) = (ss.flatMap Stretch.outside).count '?') ∧
    (∀ s : String, after none s.toList = none ↔ ∃ ss, s = Stretch.join ss) ∧
    (∀ (s : String) (close : Char), after none s.toList = some close ↔
      ∃ ss o body, closing? o = some close ∧ close ∉ body ∧
        s = Stretch.join ss ++ String.ofList (o :: body)) ∧
    ∀ s t : String, countIn (s ++ t) = countIn s +
      match after none s.toList with
      | none => countIn t
      | some close => countIn (String.ofList (behind close t.toList)) := by
  refine ⟨fun ss => ?_, fun s => ?_, fun s close => ?_, fun s t => ?_⟩
  · rw [countIn, Stretch.join, String.toList_ofList]
    exact (scan_stretches ss).2
  · rw [← divided_iff]
    constructor
    · intro h
      generalize hl : s.toList = l at h
      cases h with
      | closed ss => exact ⟨ss, by rw [Stretch.join, ← hl, String.ofList_toList]⟩
    · rintro ⟨ss, rfl⟩
      rw [Stretch.join, String.toList_ofList]
      exact .closed ss
  · rw [← divided_iff]
    constructor
    · intro h
      generalize hl : s.toList = l at h
      cases h with
      | @opened ss o _ ho body hbody =>
        refine ⟨ss, o, body, ho, hbody, ?_⟩
        rw [Stretch.join, ← String.ofList_append, ← hl, String.ofList_toList]
    · rintro ⟨ss, o, body, ho, hbody, rfl⟩
      rw [Stretch.join, ← String.ofList_append, String.toList_ofList]
      exact .opened ss ho hbody
  · rw [countIn, String.toList_append, count_append, ← countIn]
    cases after none s.toList with
    | none => rfl
    | some close =>
      dsimp only
      rw [count_some, countIn, countIn, String.toList_ofList]

/-- Doubled quotes, adjacent quotes, and one placeholder. -/
example : countIn "a = 'it''s ?' AND b = ? AND [c?]\x22?\x22 = '?''" = 1 := by decide

end Placeholder

end BoundSql
