import BoundSql.Proofs.Toml.Spelling

/-!
# Reading strings

A string on several lines is read piece by piece, up to three quotes in a row.  Up to two more may
stand right in front of them, and they belong to the string; so what is read as a quote inside the
string depends on the two characters after it.  `Toml.string_append` is the main statement: a string
is read from each of its texts.
-/

namespace BoundSql

namespace Toml

open Reader (orElse_apply bind_apply char_self char_of_ne satisfying_of_pos satisfying_of_neg
  exactly_append exactly_of_ne optional_of_some optional_of_none takeWhile_append
  takeWhile1_append manyUpTo_of_none manyUpTo_of_some)

/-! ### Reading lines -/

theorem newline_append {n : List Char} (h : Newline n) (rest : List Char) :
    newline (n ++ rest) = some ((), rest) := by
  cases h <;> rfl

theorem newline_of_ne {c : Char} (hlf : c ≠ '\n') (hcr : c ≠ '\r') (s : List Char) :
    newline (c :: s) = none := by
  rw [newline, orElse_apply, char_of_ne hlf, exactly_of_ne hcr, Option.none_or]

theorem newline_of_onLine {s : List Char} (h : OnLine s) : newline s = none := by
  cases s with
  | nil => rfl
  | cons c s =>
    obtain ⟨hlf, hcr⟩ := h c rfl
    exact newline_of_ne hlf hcr s

theorem Newline.ne_nil {n : List Char} (h : Newline n) : n ≠ [] := by
  cases h <;> exact List.cons_ne_nil _ _

theorem unspaced_newline {n : List Char} (h : Newline n) (s : List Char) : Unspaced (n ++ s) := by
  cases h <;> (intro c hc; cases hc; decide)

/-- White space up to a text without it at its start. -/
theorem spaces_append {w s : List Char} (hw : ∀ c ∈ w, isSpace c = true) (hs : Unspaced s) :
    spaces (w ++ s) = some ((), s) := by
  rw [spaces, bind_apply, takeWhile_append hw hs]
  rfl

theorem spaces_of_unspaced {s : List Char} (h : Unspaced s) : spaces s = some ((), s) :=
  spaces_append (w := []) (fun _ hc => absurd hc List.not_mem_nil) h

/-- Reads a run of white space, or the end of a line. -/
def blank : Reader Unit :=
  (do let _ ← Reader.takeWhile1 isSpace) <|> newline

theorem blank_of_dense {s : List Char} (h : Dense s) : blank s = none := by
  cases s with
  | nil => rfl
  | cons c s =>
    obtain ⟨hspace, hlf, hcr⟩ := h c rfl
    rw [blank, orElse_apply, bind_apply, Reader.takeWhile1, bind_apply,
      satisfying_of_neg isSpace hspace, newline_of_ne hlf hcr]
    rfl

theorem blank_newline {n : List Char} (h : Newline n) (s : List Char) :
    blank (n ++ s) = some ((), s) := by
  cases h <;> rfl

theorem blank_spaces {w s : List Char} (hne : w ≠ []) (hw : ∀ c ∈ w, isSpace c = true)
    (hs : Unspaced s) : blank (w ++ s) = some ((), s) := by
  rw [blank, orElse_apply, bind_apply, takeWhile1_append hne hw hs]
  rfl

/-- Blanks start with white space that is followed by the end of a line, or by nothing. -/
theorem Blank.exists_spaces {b : List Char} (h : Blank b) :
    ∃ w b', b = w ++ b' ∧ (∀ c ∈ w, isSpace c = true) ∧
      (b' = [] ∨ ∃ n b'', Newline n ∧ Blank b'' ∧ b' = n ++ b'') := by
  induction h with
  | nil => exact ⟨[], [], rfl, fun _ h => absurd h List.not_mem_nil, .inl rfl⟩
  | @space c s hc _ ih =>
    obtain ⟨w, b', rfl, hw, hb'⟩ := ih
    exact ⟨c :: w, b', rfl, List.forall_mem_cons.2 ⟨hc, hw⟩, hb'⟩
  | @newline n s hn hs =>
    exact ⟨[], n ++ s, rfl, fun _ h => absurd h List.not_mem_nil, .inr ⟨n, s, hn, hs, rfl⟩⟩

/-- One step takes something off blanks and leaves blanks. -/
theorem exists_blank {b s : List Char} (hb : Blank b) (hne : b ≠ []) (hs : Dense s) :
    ∃ b', Blank b' ∧ b'.length < b.length ∧ blank (b ++ s) = some ((), b' ++ s) := by
  obtain ⟨w, b', rfl, hw, hb'⟩ := hb.exists_spaces
  by_cases hnil : w = []
  · subst hnil
    obtain rfl | ⟨n, b'', hn, hb'', rfl⟩ := hb'
    · exact absurd rfl hne
    · have hpos := List.length_pos_of_ne_nil hn.ne_nil
      refine ⟨b'', hb'', by rw [List.nil_append, List.length_append]; omega, ?_⟩
      rw [List.nil_append, List.append_assoc, blank_newline hn]
  · have hpos := List.length_pos_of_ne_nil hnil
    have hblank : Blank b' ∧ Unspaced (b' ++ s) := by
      obtain rfl | ⟨n, b'', hn, hb'', rfl⟩ := hb'
      · exact ⟨.nil, hs.unspaced⟩
      · rw [List.append_assoc]
        exact ⟨.newline hn hb'', unspaced_newline hn _⟩
    refine ⟨b', hblank.1, by rw [List.length_append]; omega, ?_⟩
    rw [List.append_assoc, blank_spaces hnil hw hblank.2]

/-- Blanks are read up to a text that starts with none. -/
theorem exists_manyUpTo_blank {b s : List Char} (hb : Blank b) (hs : Dense s) {n : Nat}
    (hn : b.length ≤ n) : ∃ us, Reader.manyUpTo blank n (b ++ s) = some (us, s) := by
  induction n generalizing b with
  | zero =>
    rw [List.length_eq_zero_iff.1 (Nat.le_zero.1 hn)]
    exact ⟨[], rfl⟩
  | succ n ih =>
    by_cases hne : b = []
    · subst hne
      exact ⟨[], manyUpTo_of_none (blank_of_dense hs) _⟩
    · obtain ⟨b', hb', hlt, hstep⟩ := exists_blank hb hne hs
      obtain ⟨us, hus⟩ := ih hb' (by omega)
      exact ⟨() :: us, manyUpTo_of_some hstep hus⟩

/-! ### Reading pieces -/

/-- The reader takes each piece, and no quote. -/
structure TakesPieces (q : Char) (P : List Char → List Char → List Char → Prop)
    (p : Reader (List Char)) : Prop where
  append {cs t u : List Char} (h : P cs t u) (rest : List Char) :
    p (t ++ (u ++ q :: rest)) = some (cs, u ++ q :: rest)
  head {cs t u : List Char} (h : P cs t u) : ∃ c t', t = c :: t' ∧ c ≠ q
  quote (rest : List Char) : p (q :: rest) = none

/-- Reads a piece of a basic string on several lines. -/
def basicPiece : Reader (List Char) :=
  (do continuation; return []) <|> (do let c ← basicChar <|> lineFeed; return [c])

/-- Reads a piece of a literal string on several lines. -/
def literalPiece : Reader (List Char) := do
  let c ← lineFeed <|> Reader.satisfying fun c => isPlain c && c != '\x27'
  return [c]

theorem forall_head_append {P : Char → Prop} {u : List Char} (hu : ∀ c ∈ u.head?, P c) {q : Char}
    (hq : P q) (rest : List Char) : ∀ c ∈ (u ++ q :: rest).head?, P c := by
  cases u with
  | nil =>
    intro c hc
    cases hc
    exact hq
  | cons d u => exact hu

theorem continuation_append {w n b s : List Char} (hw : ∀ c ∈ w, isSpace c = true) (hn : Newline n)
    (hb : Blank b) (hs : Dense s) :
    continuation ('\\' :: (w ++ (n ++ (b ++ s)))) = some ((), s) := by
  obtain ⟨us, hus⟩ := exists_manyUpTo_blank hb hs (n := (b ++ s).length) (by simp)
  rw [continuation, bind_apply, char_self, Option.bind_some, bind_apply,
    spaces_append hw (unspaced_newline hn _), Option.bind_some, bind_apply, newline_append hn,
    Option.bind_some, bind_apply]
  change (Reader.manyUpTo blank _ (b ++ s)).bind _ = _
  rw [hus]
  rfl

/-- A backslash in front of anything but white space and the end of a line does not continue a
line. -/
theorem continuation_escape {c : Char} (h : Dense [c]) (s : List Char) :
    continuation ('\\' :: c :: s) = none := by
  obtain ⟨-, hlf, hcr⟩ := h c rfl
  have hunspaced : Unspaced (c :: s) := h.unspaced
  rw [continuation, bind_apply, char_self, Option.bind_some, bind_apply,
    spaces_of_unspaced hunspaced, Option.bind_some, bind_apply, newline_of_ne hlf hcr]
  rfl

theorem dense_letter {l c : Char} (h : (l, c) ∈ escapes) : Dense [l] := by
  have hletters : ∀ e ∈ escapes, isSpace e.1 = false ∧ e.1 ≠ '\n' ∧ e.1 ≠ '\r' := by decide
  intro d hd
  cases hd
  exact hletters (l, c) h

theorem continuation_of_spells {c : Char} {t : List Char} (h : Spells c t) (rest : List Char) :
    continuation (t ++ rest) = none := by
  cases h with
  | plain h hquote hslash =>
    rw [continuation, bind_apply, List.singleton_append, char_of_ne hslash]
    rfl
  | letter h => exact continuation_escape (dense_letter h) rest
  | code hl hds h =>
    refine continuation_escape ?_ _
    rcases hl with ⟨rfl, -⟩ | ⟨rfl, -⟩ <;> (intro d hd; cases hd; decide)

theorem takesPieces_basic : TakesPieces '"' BasicPiece basicPiece where
  append h rest := by
    rw [basicPiece, orElse_apply, bind_apply, bind_apply, orElse_apply]
    cases h with
    | char h =>
      rw [continuation_of_spells h, Option.bind_none, Option.none_or, basicChar_append h]
      rfl
    | newline h => cases h <;> rfl
    | continued hw hn hb hrest =>
      simp only [List.cons_append, List.append_assoc]
      rw [continuation_append hw hn hb (forall_head_append hrest (by decide) rest)]
      rfl
  head h := by
    cases h with
    | char h => exact exists_head_of_spells h
    | newline h => cases h <;> exact ⟨_, _, rfl, by decide⟩
    | continued => exact ⟨_, _, rfl, by decide⟩
  quote _ := rfl

theorem takesPieces_literal : TakesPieces '\x27' LiteralPiece literalPiece where
  append h rest := by
    rw [literalPiece, bind_apply, orElse_apply]
    cases h with
    | @char c _ h hquote =>
      have hlf : c ≠ '\n' := by rintro rfl; exact absurd h (by decide)
      have hcr : c ≠ '\r' := by rintro rfl; exact absurd h (by decide)
      have hok : (isPlain c && c != '\x27') = true := by rw [h, bne_iff_ne.2 hquote]; rfl
      rw [List.singleton_append, lineFeed, bind_apply, newline_of_ne hlf hcr, Option.bind_none,
        Option.none_or, satisfying_of_pos (fun c => isPlain c && c != '\x27') hok]
      rfl
    | newline h => cases h <;> rfl
  head h := by
    cases h with
    | char h hquote => exact ⟨_, _, rfl, hquote⟩
    | newline h => cases h <;> exact ⟨_, _, rfl, by decide⟩
  quote _ := rfl

/-! ### Reading strings on several lines -/

section Multiline

variable {q : Char} {P : List Char → List Char → List Char → Prop} {p : Reader (List Char)}

/-- Reads what is inside a string on several lines: a piece, or a quote. -/
def inside (q : Char) (p : Reader (List Char)) : Reader (List Char) :=
  p <|> (do let c ← innerQuote q; return [c])

theorem inside_quote (hp : TakesPieces q P p) {a b : Char} (h : ¬(a = q ∧ b = q)) (s : List Char) :
    inside q p (q :: a :: b :: s) = some ([q], a :: b :: s) := by
  have hquote : innerQuote q (q :: a :: b :: s) = some (q, a :: b :: s) := if_pos ⟨rfl, h⟩
  rw [inside, orElse_apply, hp.quote, Option.none_or, bind_apply, hquote]
  rfl

/-- Three quotes or more are not inside. -/
theorem inside_close (hp : TakesPieces q P p) (k : Nat) (s : List Char) :
    inside q p (List.replicate k q ++ q :: q :: q :: s) = none := by
  have hclose (s : List Char) : inside q p (q :: q :: q :: s) = none := by
    have hquote : innerQuote q (q :: q :: q :: s) = none := if_neg fun h => h.2 ⟨rfl, rfl⟩
    rw [inside, orElse_apply, hp.quote, Option.none_or, bind_apply, hquote]
    rfl
  have hquotes (s : List Char) : q :: (List.replicate k q ++ s) = List.replicate k q ++ q :: s := by
    rw [← List.cons_append, ← List.replicate_succ, List.replicate_succ', List.append_assoc,
      List.singleton_append]
  rw [← hquotes, ← hquotes, ← hquotes]
  exact hclose _

/-- Up to two quotes in front of something else are inside. -/
theorem manyUpTo_quotes (hp : TakesPieces q P p) {k : Nat} (hk : k ≤ 2) {c d : Char} (hc : c ≠ q)
    {s r : List Char} {pieces : List (List Char)} {n : Nat}
    (h : Reader.manyUpTo (inside q p) n (c :: d :: s) = some (pieces, r)) :
    Reader.manyUpTo (inside q p) (n + k) (List.replicate k q ++ c :: d :: s) =
      some (List.replicate k [q] ++ pieces, r) := by
  have hone := manyUpTo_of_some (inside_quote hp (fun h => hc h.1) s) h
  obtain rfl | rfl | rfl : k = 0 ∨ k = 1 ∨ k = 2 := by omega
  · exact h
  · exact hone
  · exact manyUpTo_of_some (inside_quote hp (fun h => hc h.2) _) hone

/-- The inside is read up to the quotes at its end, which may stand right in front of those that
close the string. -/
theorem exists_manyUpTo_inside (hp : TakesPieces q P p) {s u : List Char} (h : Body q P s u)
    (rest : List Char) {n : Nat} (hn : u.length ≤ n) :
    ∃ pieces k, k ≤ 2 ∧ pieces.flatten ++ List.replicate k q = s ∧
      Reader.manyUpTo (inside q p) n (u ++ q :: q :: q :: rest) =
        some (pieces, List.replicate k q ++ q :: q :: q :: rest) := by
  induction h generalizing n with
  | @last k hk => exact ⟨[], k, hk, rfl, manyUpTo_of_none (inside_close hp k rest) n⟩
  | @more k cs t s u hk ht _ ih =>
    obtain ⟨c, t', rfl, hc⟩ := hp.head ht
    simp only [List.length_append, List.length_replicate, List.length_cons] at hn
    obtain ⟨pieces, k', hk', rfl, hrest⟩ := ih (n := n - k - 1) (by omega)
    refine ⟨List.replicate k [q] ++ cs :: pieces, k', hk', ?_, ?_⟩
    · rw [List.flatten_append, List.flatten_replicate_singleton, List.flatten_cons,
        List.append_assoc, List.append_assoc]
    · have hpiece : inside q p (c :: t' ++ (u ++ q :: q :: q :: rest)) =
          some (cs, u ++ q :: q :: q :: rest) := by
        rw [inside, orElse_apply, hp.append ht, Option.some_or]
      have hmany := manyUpTo_of_some hpiece hrest
      have hfuel : n - k - 1 + 1 + k = n := by omega
      rw [List.append_assoc, List.append_assoc]
      -- behind the first character of the piece there is at least a closing quote
      obtain ⟨d, w, hw⟩ : ∃ d w, t' ++ (u ++ q :: q :: q :: rest) = d :: w := by
        cases t' with
        | nil => cases u with
          | nil => exact ⟨_, _, rfl⟩
          | cons => exact ⟨_, _, rfl⟩
        | cons => exact ⟨_, _, rfl⟩
      rw [List.cons_append, hw] at hmany ⊢
      have hquotes := manyUpTo_quotes hp hk hc hmany
      rwa [hfuel] at hquotes

theorem closing_quotes {k : Nat} (hk : k ≤ 2) {rest : List Char}
    (hrest : ∀ c ∈ rest.head?, c ≠ q) :
    closing q (List.replicate k q ++ q :: q :: q :: rest) = some (List.replicate k q, rest) := by
  have hquotes : List.replicate k q ++ q :: q :: q :: rest =
      List.replicate (k + 3) q ++ rest := by
    rw [List.replicate_add, List.append_assoc]
    rfl
  have htake : (List.replicate (k + 3) q ++ rest).takeWhile (· == q) =
      List.replicate (k + 3) q := by
    have hall : ∀ c ∈ List.replicate (k + 3) q, (c == q) = true := fun c hc =>
      beq_iff_eq.2 (List.eq_of_mem_replicate hc)
    rw [List.takeWhile_append_of_pos hall]
    cases rest with
    | nil => rw [List.takeWhile_nil, List.append_nil]
    | cons c rest =>
      rw [List.takeWhile_cons_of_neg (by simpa using hrest c rfl), List.append_nil]
  have hdrop : (List.replicate (k + 3) q ++ rest).drop (k + 3) = rest :=
    List.drop_left' List.length_replicate
  have hmin : min 5 (k + 3) = k + 3 := by omega
  rw [hquotes]
  simp only [closing, htake, List.length_replicate, hmin, if_pos (Nat.le_add_left 3 k), hdrop,
    Nat.add_sub_cancel]

theorem multiline_append (hp : TakesPieces q P p) (hq : q ≠ '\n' ∧ q ≠ '\r') {s t : List Char}
    (h : Multiline q P s t) {rest : List Char} (hrest : ∀ c ∈ rest.head?, c ≠ q) :
    multiline q p (t ++ rest) = some (String.ofList s, rest) := by
  have hinside {s u : List Char} (h : Body q P s u) :
      (do
        let pieces ← Reader.many (inside q p)
        let quotes ← closing q
        return String.ofList (pieces.flatten ++ quotes) : Reader String)
        (u ++ q :: q :: q :: rest) = some (String.ofList s, rest) := by
    obtain ⟨pieces, k, hk, rfl, hmany⟩ := exists_manyUpTo_inside hp h rest
      (n := (u ++ q :: q :: q :: rest).length) (by rw [List.length_append]; omega)
    rw [bind_apply, Reader.many, hmany, Option.bind_some, bind_apply, closing_quotes hk hrest]
    rfl
  have hopen (s : List Char) : Reader.exactly [q, q, q] (q :: q :: q :: s) = some ((), s) :=
    exactly_append [q, q, q] s
  rw [multiline, bind_apply]
  cases h with
  | nextLine hn h =>
    simp only [List.cons_append, List.append_assoc, List.nil_append]
    rw [hopen, Option.bind_some, bind_apply, optional_of_some (newline_append hn _)]
    exact hinside h
  | sameLine hu h =>
    simp only [List.cons_append, List.append_assoc, List.nil_append]
    rw [hopen, Option.bind_some, bind_apply,
      optional_of_none (newline_of_onLine (forall_head_append hu hq _))]
    exact hinside h

theorem multiline_of_ne {c : Char} (h : c ≠ q) (s : List Char) : multiline q p (c :: s) = none := by
  rw [multiline, bind_apply, exactly_of_ne h, Option.bind_none]

/-- A string on one line does not open one on several, nor does an empty string. -/
theorem multiline_of_line {s rest : List Char} (hs : ∀ c ∈ s.head?, c ≠ q)
    (hrest : ∀ c ∈ rest.head?, c ≠ q) : multiline q p (q :: (s ++ q :: rest)) = none := by
  have hexactly : Reader.exactly [q, q, q] (q :: (s ++ q :: rest)) = none := by
    rw [Reader.exactly, bind_apply, char_self, Option.bind_some]
    cases s with
    | cons c s => exact exactly_of_ne (hs c rfl) _ _
    | nil =>
      rw [List.nil_append, Reader.exactly, bind_apply, char_self, Option.bind_some]
      cases rest with
      | nil => rfl
      | cons c rest => exact exactly_of_ne (hrest c rfl) _ _
  rw [multiline, bind_apply, hexactly, Option.bind_none]

theorem Multiline.exists_cons {s t : List Char} (h : Multiline q P s t) : ∃ t', t = q :: t' := by
  cases h <;> exact ⟨_, rfl⟩

end Multiline

/-! ### Reading strings -/

theorem forall_head_spells {cs : List Char} {ts : List (List Char)}
    (h : List.Forall₂ Spells cs ts) : ∀ c ∈ ts.flatten.head?, c ≠ '"' := by
  cases h with
  | nil => exact fun c hc => nomatch hc
  | cons ht _ =>
    obtain ⟨d, t', rfl, hd⟩ := exists_head_of_spells ht
    intro c hc
    cases hc
    exact hd

/-- **A string is read from each text that writes it**, up to what follows unless it is a quote. -/
theorem string_append {s : String} {t : List Char} (h : Writes s t) {rest : List Char}
    (hrest : ∀ c ∈ rest.head?, c ≠ '"' ∧ c ≠ '\x27') : string (t ++ rest) = some (s, rest) := by
  have hquote : ∀ c ∈ rest.head?, c ≠ '"' := fun c hc => (hrest c hc).1
  have hapostrophe : ∀ c ∈ rest.head?, c ≠ '\x27' := fun c hc => (hrest c hc).2
  rw [string, orElse_apply, orElse_apply, orElse_apply]
  cases h with
  | @basic cs ts h =>
    have hmultiline : multilineBasic ('"' :: (ts.flatten ++ '"' :: rest)) = none :=
      multiline_of_line (forall_head_spells h) hquote
    rw [List.cons_append, List.append_assoc, List.singleton_append, hmultiline, Option.none_or,
      multilineLiteral, multiline_of_ne (by decide), Option.none_or, basic_append h,
      Option.some_or]
  | @literal cs h =>
    have hmultiline : multilineLiteral ('\x27' :: (cs ++ '\x27' :: rest)) = none :=
      multiline_of_line (fun c hc => (h c (List.mem_of_mem_head? hc)).2) hapostrophe
    have hbasic : basic ('\x27' :: (cs ++ '\x27' :: rest)) = none := rfl
    rw [List.cons_append, List.append_assoc, List.singleton_append, multilineBasic,
      multiline_of_ne (by decide), Option.none_or, hmultiline, Option.none_or, hbasic,
      Option.none_or, literal_append h]
  | @multilineBasic cs _ h =>
    have hread : multilineBasic (t ++ rest) = some (String.ofList cs, rest) :=
      multiline_append takesPieces_basic (by decide) h hquote
    rw [hread, Option.some_or]
  | @multilineLiteral cs _ h =>
    have hread : multilineLiteral (t ++ rest) = some (String.ofList cs, rest) :=
      multiline_append takesPieces_literal (by decide) h hapostrophe
    obtain ⟨t', rfl⟩ := h.exists_cons
    rw [hread, multilineBasic, List.cons_append, multiline_of_ne (by decide), Option.none_or,
      Option.some_or]

end Toml

end BoundSql
