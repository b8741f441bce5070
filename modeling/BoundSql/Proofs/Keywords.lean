import BoundSql.Schema.Token
import Mathlib.Data.List.TakeWhile
import Mathlib.Tactic.SplitIfs

/-!
# Keywords are recognised by their words

The words of a text are its maximal runs of characters that do not separate (`Text.Runs`), and a
keyword is recognised by them in upper case.  Upper case moves no character across the border
between separators and others, so that it does not matter whether a text is cut into words or put in
upper case first; and words that are joined by spaces can be told from the joined text.
`Keyword.recognition` is the main statement.
-/

namespace BoundSql

namespace Text

/-! ### Words -/

section

variable {separates : Char → Bool} {gap s t : List Char} {ws : List (List Char)}

/-- The maximal runs of characters that do not separate, in order.  Separators may stand in front of
each, and behind the last. -/
inductive Runs (separates : Char → Bool) : List Char → List (List Char) → Prop where
  | nil {gap : List Char} (hgap : ∀ c ∈ gap, separates c = true) : Runs separates gap []
  | cons {gap w rest : List Char} {ws : List (List Char)} (hgap : ∀ c ∈ gap, separates c = true)
    (hne : w ≠ []) (hw : ∀ c ∈ w, separates c = false)
    (hnext : ∀ c ∈ rest.head?, separates c = true) (h : Runs separates rest ws) :
    Runs separates (gap ++ (w ++ rest)) (w :: ws)

theorem Runs.empty : Runs separates [] [] := .nil (by simp)

/-- The first run may begin the text. -/
theorem Runs.start {w : List Char} (h : Runs separates s ws) (hne : w ≠ [])
    (hw : ∀ c ∈ w, separates c = false) (hnext : ∀ c ∈ s.head?, separates c = true) :
    Runs separates (w ++ s) (w :: ws) :=
  .cons (List.forall_mem_nil _) hne hw hnext h

/-- Separators in front belong to no run. -/
theorem Runs.gap_append (h : Runs separates s ws) (hgap : ∀ c ∈ gap, separates c = true) :
    Runs separates (gap ++ s) ws := by
  cases h with
  | nil hgap' => exact .nil (List.forall_mem_append.2 ⟨hgap, hgap'⟩)
  | cons hgap' hne hw hnext h =>
    rw [← List.append_assoc]
    exact .cons (List.forall_mem_append.2 ⟨hgap, hgap'⟩) hne hw hnext h

/-- Separators behind belong to no run. -/
theorem Runs.append_gap (h : Runs separates s ws) (hgap : ∀ c ∈ gap, separates c = true) :
    Runs separates (s ++ gap) ws := by
  induction h with
  | nil hgap' => exact .nil (List.forall_mem_append.2 ⟨hgap', hgap⟩)
  | @cons _ w rest _ hgap' hne hw hnext _ ih =>
    rw [List.append_assoc, List.append_assoc]
    refine .cons hgap' hne hw (fun c hc => ?_) ih
    cases rest with
    | nil => exact hgap c (List.mem_of_mem_head? hc)
    | cons d rest => exact hnext c hc

/-- No run is empty or has a separator. -/
theorem Runs.mem (h : Runs separates s ws) :
    ∀ w ∈ ws, w ≠ [] ∧ ∀ c ∈ w, separates c = false := by
  induction h with
  | nil _ => simp
  | cons _ hne hw _ _ ih => exact List.forall_mem_cons.2 ⟨⟨hne, hw⟩, ih⟩

theorem exists_runs (separates : Char → Bool) (s : List Char) : ∃ ws, Runs separates s ws := by
  induction s with
  | nil => exact ⟨[], .nil (by simp)⟩
  | cons c s ih =>
    obtain ⟨ws, h⟩ := ih
    by_cases hc : separates c = true
    · have hgap : ∀ d ∈ [c], separates d = true := by simpa using hc
      exact ⟨ws, h.gap_append hgap⟩
    rw [Bool.not_eq_true] at hc
    by_cases hnext : ∀ d ∈ s.head?, separates d = true
    · have hw : ∀ d ∈ [c], separates d = false := by simpa using hc
      exact ⟨[c] :: ws, h.start (by simp) hw hnext⟩
    · -- the character goes on with the first run
      cases h with
      | nil hgap => exact absurd (fun d hd => hgap d (List.mem_of_mem_head? hd)) hnext
      | @cons gap w rest ws hgap hne hw hrest h =>
        obtain rfl : gap = [] := by
          cases gap with
          | nil => rfl
          | cons d gap => simp [hgap d List.mem_cons_self] at hnext
        have hw : ∀ d ∈ c :: w, separates d = false := List.forall_mem_cons.2 ⟨hc, hw⟩
        exact ⟨(c :: w) :: ws, h.start (by simp) hw hrest⟩

theorem words_gap_append (hgap : ∀ c ∈ gap, separates c = true) :
    words separates (gap ++ s) = words separates s := by
  induction gap with
  | nil => rfl
  | cons c gap ih =>
    obtain ⟨hc, hgap⟩ := List.forall_mem_cons.1 hgap
    rw [← ih hgap, words, List.cons_append, pieces, if_pos hc]
    rfl

theorem pieces_ne_nil (separates : Char → Bool) (s : List Char) : pieces separates s ≠ [] := by
  cases s with
  | nil => simp [pieces]
  | cons c s =>
    unfold pieces
    split_ifs
    · simp
    · cases pieces separates s <;> simp

theorem pieces_append {w : List Char} (hw : ∀ c ∈ w, separates c = false) :
    pieces separates (w ++ s) = (pieces separates s).modifyHead (w ++ ·) := by
  induction w with
  | nil => exact (congrFun List.modifyHead_id _).symm
  | cons c w ih =>
    obtain ⟨hc, hw⟩ := List.forall_mem_cons.1 hw
    rw [List.cons_append, pieces, if_neg (by simp [hc]), ih hw]
    cases hs : pieces separates s with
    | nil => exact absurd hs (pieces_ne_nil separates s)
    | cons p ps => rfl

theorem words_run_append {w : List Char} (hne : w ≠ []) (hw : ∀ c ∈ w, separates c = false)
    (hnext : ∀ c ∈ s.head?, separates c = true) :
    words separates (w ++ s) = w :: words separates s := by
  have hpieces : ∃ ps, pieces separates s = [] :: ps := by
    cases s with
    | nil => exact ⟨[], rfl⟩
    | cons c s => exact ⟨_, if_pos (hnext c rfl)⟩
  obtain ⟨ps, hps⟩ := hpieces
  rw [words, pieces_append hw, words, hps]
  simp [hne]

/-- **The words of a text are its runs**, of which there is one list. -/
theorem runs_iff : Runs separates s ws ↔ ws = words separates s := by
  have hwords {ws : List (List Char)} (h : Runs separates s ws) : ws = words separates s := by
    induction h with
    | @nil gap hgap =>
      rw [← List.append_nil gap, words_gap_append hgap]
      rfl
    | cons hgap hne hw hnext _ ih =>
      rw [words_gap_append hgap, words_run_append hne hw hnext, ← ih]
  refine ⟨hwords, ?_⟩
  rintro rfl
  obtain ⟨ws, h⟩ := exists_runs separates s
  exact hwords h ▸ h

/-- Words joined by spaces are the words of the joined text. -/
theorem words_intercalate (hspace : separates ' ' = true)
    (hws : ∀ w ∈ ws, w ≠ [] ∧ ∀ c ∈ w, separates c = false) :
    words separates ([' '].intercalate ws) = ws := by
  refine (runs_iff.1 ?_).symm
  have hgap : ∀ c ∈ [' '], separates c = true := by simpa using hspace
  induction ws with
  | nil => exact .empty
  | cons w ws ih =>
    obtain ⟨⟨hne, hw⟩, hws⟩ := List.forall_mem_cons.1 hws
    by_cases hlast : ws = []
    · subst hlast
      simpa using Runs.empty.start hne hw (by simp)
    · rw [List.intercalate_cons_of_ne_nil hlast, List.append_assoc]
      exact ((ih hws).gap_append hgap).start hne hw (by simpa using hspace)

end

/-! ### Blanks around a text -/

/-- Trimming takes away blanks, which are in no word. -/
theorem words_trim {separates : Char → Bool} (h : ∀ c, isBlank c = true → separates c = true)
    (s : List Char) : words separates (trim s) = words separates s := by
  have hblank (s : List Char) : ∀ c ∈ s.takeWhile isBlank, separates c = true :=
    fun c hc => h c (List.mem_takeWhile_imp hc)
  have hleft (s : List Char) : s.takeWhile isBlank ++ trimLeft s = s :=
    List.takeWhile_append_dropWhile
  have hright : trim s ++ ((trimLeft s).reverse.takeWhile isBlank).reverse = trimLeft s := by
    rw [trim, ← List.reverse_append, hleft, List.reverse_reverse]
  have htail : ∀ c ∈ ((trimLeft s).reverse.takeWhile isBlank).reverse, separates c = true :=
    fun c hc => hblank _ c (List.mem_reverse.1 hc)
  have hruns : Runs separates (trim s) (words separates (trim s)) := runs_iff.2 rfl
  have hs := (hruns.append_gap htail).gap_append (hblank s)
  rw [hright, hleft] at hs
  exact runs_iff.1 hs

end Text

namespace Keyword

open Text

/-! ### Upper case -/

/-- The code points of separators. -/
def separatorRanges : List (Nat × Nat) := (0x5f, 0x5f) :: blankRanges

theorem separates_iff {c : Char} :
    separates c = true ↔ ∃ r ∈ separatorRanges, r.1 ≤ c.toNat ∧ c.toNat ≤ r.2 := by
  have hunderscore : c = '_' ↔ 0x5f ≤ c.toNat ∧ c.toNat ≤ 0x5f := by
    rw [← Char.toNat_inj, show '_'.toNat = 0x5f from rfl]
    omega
  simp [separates, separatorRanges, isBlank, hunderscore]

theorem separates_of_isBlank (c : Char) (h : isBlank c = true) : separates c = true := by
  simp [separates, h]

/-- A separator is its own upper case. -/
theorem upperChar_of_separates {c : Char} (h : separates c = true) : upperChar c = [c] := by
  have hranges : ∀ r ∈ separatorRanges, ∀ n ∈ List.range' r.1 (r.2 + 1 - r.1),
      upperChar (Char.ofNat n) = [Char.ofNat n] := by decide +kernel
  obtain ⟨r, hr, hlo, hhi⟩ := separates_iff.1 h
  have hc := hranges r hr c.toNat (List.mem_range'_1.2 (by omega))
  rwa [Char.ofNat_toNat] at hc

theorem toNat_ofNat_eq_or (n : Nat) : (Char.ofNat n).toNat = n ∨ (Char.ofNat n).toNat = 0 := by
  by_cases h : n.isValidChar
  · refine .inl ?_
    rw [Char.ofNat, dif_pos h]
    rfl
  · refine .inr ?_
    rw [Char.ofNat, dif_neg h]
    rfl

/-- The upper case of a code point is in a run that is moved, or is listed, or is itself. -/
theorem lookup_cases (n : Nat) :
    (∃ e ∈ Capital.shifts, e.1 ≤ n ∧ n ≤ e.2.1 ∧ Capital.lookup n = [(n + e.2.2.2).toNat]) ∨
      (∃ e ∈ Capital.expansions, Capital.lookup n = e.2) ∨ Capital.lookup n = [n] := by
  unfold Capital.lookup
  split
  · rename_i first last step shift he
    have hrange := List.find?_some he
    simp only [Bool.and_eq_true, decide_eq_true_eq] at hrange
    exact .inl ⟨_, List.mem_of_find?_eq_some he, hrange.1.1, hrange.1.2, rfl⟩
  · split
    · rename_i he
      exact .inr (.inl ⟨_, List.mem_of_find?_eq_some he, rfl⟩)
    · exact .inr (.inr rfl)

/-- No character beyond ASCII becomes a separator. -/
theorem separates_lookup {n m : Nat} (h : separates (Char.ofNat n) = false)
    (hm : m ∈ Capital.lookup n) : separates (Char.ofNat m) = false := by
  have hpos : ∀ r ∈ separatorRanges, 0 < r.1 := by decide
  -- where runs of characters are moved, there are no separators
  have hshifts : ∀ e ∈ Capital.shifts, ∀ r ∈ separatorRanges,
      (e.2.1 + e.2.2.2 : Int) < r.1 ∨ (r.2 : Int) < e.1 + e.2.2.2 := by decide +kernel
  have hexpansions : ∀ e ∈ Capital.expansions, ∀ k ∈ e.2,
      separates (Char.ofNat k) = false := by decide +kernel
  rcases lookup_cases n with ⟨e, he, hlo, hhi, heq⟩ | ⟨e, he, heq⟩ | heq
  · obtain rfl := List.mem_singleton.1 (heq ▸ hm)
    by_contra hsep
    obtain ⟨r, hr, hrlo, hrhi⟩ := separates_iff.1 (Bool.not_eq_false _ ▸ hsep)
    have hmoved := hshifts e he r hr
    have hnat := toNat_ofNat_eq_or (n + e.2.2.2).toNat
    have := hpos r hr
    omega
  · exact hexpansions e he m (heq ▸ hm)
  · obtain rfl := List.mem_singleton.1 (heq ▸ hm)
    exact h

theorem separates_upperChar {c : Char} (h : separates c = false) :
    ∀ d ∈ upperChar c, separates d = false := by
  have hascii : ∀ n < 128, separates (Char.ofNat n) = false →
      separates (Char.ofNat n).toUpper = false := by decide +kernel
  have hc := Char.ofNat_toNat c
  intro d hd
  unfold upperChar at hd
  by_cases hsmall : c.toNat < 128
  · rw [if_pos hsmall, List.mem_singleton] at hd
    have hupper := hascii c.toNat hsmall
    rw [hc] at hupper
    exact hd ▸ hupper h
  · rw [if_neg hsmall] at hd
    obtain ⟨m, hm, rfl⟩ := List.mem_map.1 hd
    exact separates_lookup (hc.symm ▸ h) hm

theorem upperChar_ne_nil (c : Char) : upperChar c ≠ [] := by
  have hexpansions : ∀ e ∈ Capital.expansions, e.2 ≠ [] := by decide
  unfold upperChar
  split_ifs
  · simp
  · rcases lookup_cases c.toNat with ⟨_, _, _, _, heq⟩ | ⟨e, he, heq⟩ | heq
    · simp [heq]
    · simpa [heq] using hexpansions e he
    · simp [heq]

theorem upper_eq_self {s : List Char} (h : ∀ c ∈ s, separates c = true) : upper s = s := by
  induction s with
  | nil => rfl
  | cons c s ih =>
    obtain ⟨hc, hs⟩ := List.forall_mem_cons.1 h
    rw [upper_cons, upperChar_of_separates hc, ih hs, List.singleton_append]

theorem separates_upper {w : List Char} (h : ∀ c ∈ w, separates c = false) :
    ∀ c ∈ upper w, separates c = false := by
  intro d hd
  obtain ⟨c, hc, hd⟩ := List.mem_flatMap.1 hd
  exact separates_upperChar (h c hc) d hd

theorem upper_ne_nil {w : List Char} (h : w ≠ []) : upper w ≠ [] := by
  cases w with
  | nil => exact absurd rfl h
  | cons c w => simp [upper_cons, upperChar_ne_nil]

/-- **The runs of a text in upper case** are its runs, each in upper case. -/
theorem runs_upper {s : List Char} {ws : List (List Char)} (h : Runs separates s ws) :
    Runs separates (upper s) (ws.map upper) := by
  induction h with
  | nil hgap =>
    rw [upper_eq_self hgap]
    exact .nil hgap
  | @cons gap w rest ws hgap hne hw hnext _ ih =>
    rw [upper_append, upper_append, upper_eq_self hgap, List.map_cons]
    refine .cons hgap (upper_ne_nil hne) (separates_upper hw) ?_ ih
    cases rest with
    | nil => simp [upper_nil]
    | cons c rest =>
      have hc := hnext c rfl
      rw [upper_cons, upperChar_of_separates hc]
      simpa using hc

theorem words_eq_of_runs {s : String} {ws : List (List Char)} (h : Runs separates s.toList ws) :
    words s = ws.map upper := by
  rw [words, ← runs_iff.1 h]

/-- The words are the runs of the text in upper case. -/
theorem runs_words (s : String) : Runs separates (upper s.toList) (words s) :=
  runs_upper (runs_iff.2 rfl)

/-! ### Recognition -/

theorem words_sql_inj {k l : Keyword} (h : words k.sql = words l.sql) : k = l := by
  have hall : ∀ k ∈ all, ∀ l ∈ all, words k.sql = words l.sql → k = l := by decide +kernel
  exact hall k (mem_all k) l (mem_all l) h

theorem parse?_eq_some_iff {s : String} {k : Keyword} :
    parse? s = some k ↔ words s = words k.sql ∨ k = integer ∧ words s = [['I', 'N', 'T']] := by
  have hint (k : Keyword) : words k.sql ≠ [['I', 'N', 'T']] := by
    cases k <;> decide +kernel
  unfold parse?
  by_cases hs : words s = [['I', 'N', 'T']]
  · rw [if_pos hs, Option.some.injEq]
    simp [hs, (hint k).symm, eq_comm]
  · rw [if_neg hs]
    simp only [hs, and_false, or_false]
    constructor
    · intro h
      simpa [eq_comm] using List.find?_some h
    · intro h
      obtain ⟨l, hl⟩ : ∃ l, all.find? (fun k => words k.sql = words s) = some l :=
        Option.isSome_iff_exists.1 (List.find?_isSome.2 ⟨k, mem_all k, by simp [h]⟩)
      have hwords : words l.sql = words s := by simpa using List.find?_some hl
      rw [hl, words_sql_inj (hwords.trans h)]

/-- The text of a keyword with a space for each underscore. -/
def spaced (k : Keyword) : List Char := k.sql.toList.map fun c => if c = '_' then ' ' else c

/-- What a text is compared by: its pieces that are not empty, joined by spaces, in upper case. -/
def normalized (s : String) : List Char :=
  upper ([' '].intercalate ((pieces separates (trim s.toList)).filter fun p => !p.isEmpty))

theorem upper_intercalate (ws : List (List Char)) :
    upper ([' '].intercalate ws) = [' '].intercalate (ws.map upper) := by
  induction ws with
  | nil => rfl
  | cons w ws ih =>
    by_cases hlast : ws = []
    · subst hlast
      simp
    · rw [List.intercalate_cons_of_ne_nil hlast, upper_append, upper_append, ih, List.map_cons,
        List.intercalate_cons_of_ne_nil (by simpa using hlast)]
      rfl

theorem normalized_eq (s : String) : normalized s = [' '].intercalate (words s) := by
  change upper ([' '].intercalate (Text.words separates (trim s.toList))) = _
  rw [words_trim separates_of_isBlank, upper_intercalate]
  rfl

/-- Texts with the same words are those that are compared as equal. -/
theorem normalized_eq_iff {s t : String} : normalized s = normalized t ↔ words s = words t := by
  have hwords (s : String) : Text.words separates (normalized s) = words s := by
    rw [normalized_eq, words_intercalate rfl (runs_words s).mem]
  constructor
  · intro h
    rw [← hwords, h, hwords]
  · intro h
    rw [normalized_eq, normalized_eq, h]

/-- How keywords are recognised. -/
structure Recognition : Prop where
  /-- A text has its runs, and no others. -/
  runs : ∀ s, ∃! ws, Runs separates s ws
  /-- A keyword is recognised if the runs in upper case are those of its text, and `INT` is short
  for `INTEGER`. -/
  accepts : ∀ s ws k, Runs separates s.toList ws → (parse? s = some k ↔
    Runs separates k.sql.toList (ws.map upper) ∨ k = integer ∧ ws.map upper = [['I', 'N', 'T']])
  /-- Nothing but the runs in upper case matters. -/
  determined : ∀ s s' ws ws', Runs separates s.toList ws → Runs separates s'.toList ws' →
    ws.map upper = ws'.map upper → parse? s = parse? s'
  /-- Letter case does not matter. -/
  letterCase : ∀ s s' : String, upper s.toList = upper s'.toList → parse? s = parse? s'
  /-- A keyword is recognised by comparing texts. -/
  compared : ∀ s k, parse? s = some k ↔
    normalized s = spaced k ∨ k = integer ∧ normalized s = ['I', 'N', 'T']
  /-- A token is read again from its text. -/
  reread : ∀ s, ∃ t, (Token.ofText s).render = .ok t ∧ Token.ofText t = Token.ofText s

/-- **A keyword is recognised by its words.** -/
theorem recognition : Recognition where
  runs s := by
    obtain ⟨ws, h⟩ := exists_runs separates s
    exact ⟨ws, h, fun vs hvs => (runs_iff.1 hvs).trans (runs_iff.1 h).symm⟩
  accepts s ws k h := by
    have hsql : upper k.sql.toList = k.sql.toList := by
      cases k <;> decide +kernel
    have hruns := runs_words k.sql
    rw [hsql] at hruns
    rw [parse?_eq_some_iff, words_eq_of_runs h, runs_iff, ← runs_iff.1 hruns]
  determined s s' ws ws' h h' heq := by
    have hwords : words s = words s' := by rw [words_eq_of_runs h, words_eq_of_runs h', heq]
    rw [parse?, parse?, hwords]
  letterCase s s' heq := by
    have h := runs_words s
    rw [heq] at h
    have hwords : words s = words s' := (runs_iff.1 h).trans (runs_iff.1 (runs_words s')).symm
    rw [parse?, parse?, hwords]
  compared s k := by
    have hsql : normalized k.sql = spaced k := by
      cases k <;> decide +kernel
    have hint : normalized "INT" = ['I', 'N', 'T'] := by decide +kernel
    have hwords : words "INT" = [['I', 'N', 'T']] := by decide +kernel
    rw [parse?_eq_some_iff, ← hwords, ← hsql, ← hint, normalized_eq_iff, normalized_eq_iff]
  reread s := by
    unfold Token.ofText
    cases hs : parse? s with
    | none =>
      refine ⟨s, by rw [Token.render], ?_⟩
      rw [hs]
    | some k =>
      have hk : parse? k.sql = some k := parse?_eq_some_iff.2 (.inl rfl)
      refine ⟨k.sql, by rw [Token.render], ?_⟩
      rw [hk]

-- the upper case of the dotless `ı` is the letter `I`
example : parse? "_ınt\t" = some integer := by decide +kernel

end Keyword

end BoundSql
