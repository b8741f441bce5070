import BoundSql.Proofs.Readers
import BoundSql.Toml.Lexical

/-!
# The texts of a string

TOML has four ways to write a string, and escapes leave further choices within them.  `Toml.Writes`
says which texts write a string, after the grammar of TOML 1.0: in basic or literal quotes, on one
line or on several.  Strings on one line are read back here, character by character.
-/

namespace BoundSql

namespace Toml

open Reader (orElse_apply bind_apply char_self char_of_ne satisfying_of_pos takeWhile_append)

/-! ### Characters -/

/-- The letters of escapes, with what they stand for. -/
def escapes : List (Char × Char) :=
  [('b', '\x08'), ('t', '\t'), ('n', '\n'), ('f', '\x0c'), ('r', '\r'), ('"', '"'), ('\\', '\\')]

/-- What may stand for a character in a basic string. -/
inductive Spells (c : Char) : List Char → Prop where
  | plain (h : isPlain c = true) (hquote : c ≠ '"') (hslash : c ≠ '\\') : Spells c [c]
  | letter {l : Char} (h : (l, c) ∈ escapes) : Spells c ['\\', l]
  /-- The code point in four hexadecimal digits, or in eight. -/
  | code {l : Char} {ds : List Char} (hl : l = 'u' ∧ ds.length = 4 ∨ l = 'U' ∧ ds.length = 8)
    (hds : ds.all (Text.isDigitOf 16) = true) (h : Text.numberOf 16 ds = c.toNat) :
    Spells c ('\\' :: l :: ds)

/-- A line feed, with or without a carriage return in front. -/
inductive Newline : List Char → Prop where
  | lf : Newline ['\n']
  | crlf : Newline ['\r', '\n']

/-- The text does not start with the end of a line. -/
def OnLine (s : List Char) : Prop := ∀ c ∈ s.head?, c ≠ '\n' ∧ c ≠ '\r'

/-- White space and ends of lines. -/
inductive Blank : List Char → Prop where
  | nil : Blank []
  | space {c : Char} {s : List Char} (hc : isSpace c = true) (hs : Blank s) : Blank (c :: s)
  | newline {n s : List Char} (hn : Newline n) (hs : Blank s) : Blank (n ++ s)

/-- The text does not start with white space within a line. -/
def Unspaced (s : List Char) : Prop := ∀ c ∈ s.head?, isSpace c = false

/-- The text does not start with white space or the end of a line. -/
def Dense (s : List Char) : Prop := ∀ c ∈ s.head?, isSpace c = false ∧ c ≠ '\n' ∧ c ≠ '\r'

theorem Dense.unspaced {s : List Char} (h : Dense s) : Unspaced s := fun c hc => (h c hc).1

/-! ### Strings -/

/-- Characters, what may stand for them in a basic string on several lines, and what is behind it in
the string. -/
inductive BasicPiece : List Char → List Char → List Char → Prop where
  | char {c : Char} {t rest : List Char} (h : Spells c t) : BasicPiece [c] t rest
  | newline {n rest : List Char} (h : Newline n) : BasicPiece ['\n'] n rest
  /-- A backslash at the end of a line takes all blanks after it away. -/
  | continued {w n b rest : List Char} (hw : ∀ c ∈ w, isSpace c = true) (hn : Newline n)
    (hb : Blank b) (hrest : Dense rest) : BasicPiece [] ('\\' :: (w ++ (n ++ b))) rest

/-- Characters, what may stand for them in a literal string on several lines, and what is behind it
in the string. -/
inductive LiteralPiece : List Char → List Char → List Char → Prop where
  | char {c : Char} {rest : List Char} (h : isPlain c = true) (hquote : c ≠ '\x27') :
    LiteralPiece [c] [c] rest
  | newline {n rest : List Char} (h : Newline n) : LiteralPiece ['\n'] n rest

/-- The inside of a string on several lines in quotes `q`, made of pieces `P` with up to two quotes in
front of each and at the end. -/
inductive Body (q : Char) (P : List Char → List Char → List Char → Prop) :
    List Char → List Char → Prop where
  | last {k : Nat} (hk : k ≤ 2) : Body q P (List.replicate k q) (List.replicate k q)
  | more {k : Nat} {cs t s u : List Char} (hk : k ≤ 2) (hp : P cs t u) (h : Body q P s u) :
    Body q P (List.replicate k q ++ (cs ++ s)) (List.replicate k q ++ (t ++ u))

/-- A string on several lines in quotes `q`; the end of a line right behind the opening quotes does
not belong to it. -/
inductive Multiline (q : Char) (P : List Char → List Char → List Char → Prop) :
    List Char → List Char → Prop where
  | nextLine {n s u : List Char} (hn : Newline n) (h : Body q P s u) :
    Multiline q P s (q :: q :: q :: (n ++ (u ++ [q, q, q])))
  | sameLine {s u : List Char} (hu : OnLine u) (h : Body q P s u) :
    Multiline q P s (q :: q :: q :: (u ++ [q, q, q]))

/-- The text writes the string. -/
inductive Writes : String → List Char → Prop where
  | basic {cs : List Char} {ts : List (List Char)} (h : List.Forall₂ Spells cs ts) :
    Writes (String.ofList cs) ('"' :: (ts.flatten ++ ['"']))
  | literal {cs : List Char} (h : ∀ c ∈ cs, isPlain c = true ∧ c ≠ '\x27') :
    Writes (String.ofList cs) ('\x27' :: (cs ++ ['\x27']))
  | multilineBasic {cs t : List Char} (h : Multiline '"' BasicPiece cs t) :
    Writes (String.ofList cs) t
  | multilineLiteral {cs t : List Char} (h : Multiline '\x27' LiteralPiece cs t) :
    Writes (String.ofList cs) t

/-! ### Reading characters -/

/-- The digits of a character's code point write the character. -/
theorem scalar?_eq {c : Char} {ds : List Char} (hds : ds.all (Text.isDigitOf 16) = true)
    (h : Text.numberOf 16 ds = c.toNat) : scalar? ds = some c := by
  have hc : c.toNat < 0xd800 ∨ 0xe000 ≤ c.toNat ∧ c.toNat < 0x110000 := c.valid
  simp only [scalar?, hds, h, Bool.true_and, Bool.or_eq_true, Bool.and_eq_true, decide_eq_true_eq,
    if_pos hc, Char.ofNat_toNat]

theorem escape_letter {l c : Char} (h : (l, c) ∈ escapes) (s : List Char) :
    escape (l :: s) = some (c, s) := by
  simp only [escapes, List.mem_cons, Prod.mk.injEq, List.not_mem_nil, or_false] at h
  rcases h with ⟨rfl, rfl⟩ | ⟨rfl, rfl⟩ | ⟨rfl, rfl⟩ | ⟨rfl, rfl⟩ | ⟨rfl, rfl⟩ | ⟨rfl, rfl⟩ |
    ⟨rfl, rfl⟩ <;> rfl

theorem escape_code {l c : Char} {ds : List Char}
    (hl : l = 'u' ∧ ds.length = 4 ∨ l = 'U' ∧ ds.length = 8) (h : scalar? ds = some c)
    (s : List Char) : escape (l :: (ds ++ s)) = some (c, s) := by
  rcases hl with ⟨rfl, hlength⟩ | ⟨rfl, hlength⟩
  · match ds, hlength with
    | [_, _, _, _], _ =>
      simp only [List.cons_append, List.nil_append, escape, h, Option.map_some]
  · match ds, hlength with
    | [_, _, _, _, _, _, _, _], _ =>
      simp only [List.cons_append, List.nil_append, escape, h, Option.map_some]

/-- A character of a basic string is read from each of its spellings. -/
theorem basicChar_append {c : Char} {t : List Char} (h : Spells c t) (rest : List Char) :
    basicChar (t ++ rest) = some (c, rest) := by
  rw [basicChar, orElse_apply, bind_apply]
  cases h with
  | plain h hquote hslash =>
    have hok : (isPlain c && c != '"' && c != '\\') = true := by
      rw [h, bne_iff_ne.2 hquote, bne_iff_ne.2 hslash]
      rfl
    rw [List.singleton_append, char_of_ne hslash, Option.bind_none, Option.none_or,
      satisfying_of_pos (fun c => isPlain c && c != '"' && c != '\\') hok]
  | letter h =>
    rw [List.cons_append, char_self, Option.bind_some, List.singleton_append, escape_letter h,
      Option.some_or]
  | code hl hds h =>
    rw [List.cons_append, char_self, Option.bind_some, List.cons_append,
      escape_code hl (scalar?_eq hds h), Option.some_or]

theorem spells_ne_nil {c : Char} {t : List Char} (h : Spells c t) : t ≠ [] := by
  cases h <;> exact List.cons_ne_nil _ _

/-- No character of a basic string starts with a quote. -/
theorem exists_head_of_spells {c : Char} {t : List Char} (h : Spells c t) :
    ∃ d t', t = d :: t' ∧ d ≠ '"' := by
  cases h with
  | plain h hquote hslash => exact ⟨c, [], rfl, hquote⟩
  | letter | code => exact ⟨'\\', _, rfl, by decide⟩

theorem basicChar_quote (s : List Char) : basicChar ('"' :: s) = none := rfl

theorem takes_basicChar : Reader.Takes Spells (fun _ => True) basicChar where
  append h _ := basicChar_append h _
  follows _ _ := trivial
  ne_nil := spells_ne_nil

theorem basic_append {cs : List Char} {ts : List (List Char)} (h : List.Forall₂ Spells cs ts)
    (rest : List Char) : basic ('"' :: (ts.flatten ++ '"' :: rest)) =
      some (String.ofList cs, rest) := by
  rw [basic, bind_apply, char_self, Option.bind_some, bind_apply,
    takes_basicChar.many_append h trivial (basicChar_quote rest), Option.bind_some, bind_apply,
    char_self]
  rfl

theorem literal_append {cs : List Char} (h : ∀ c ∈ cs, isPlain c = true ∧ c ≠ '\x27')
    (rest : List Char) : literal ('\x27' :: (cs ++ '\x27' :: rest)) =
      some (String.ofList cs, rest) := by
  have hcs : ∀ c ∈ cs, (isPlain c && c != '\x27') = true := fun c hc => by
    rw [(h c hc).1, bne_iff_ne.2 (h c hc).2]
    rfl
  have hstop : ∀ c ∈ ('\x27' :: rest).head?, (isPlain c && c != '\x27') = false := by
    intro c hc
    cases hc
    decide
  rw [literal, bind_apply, char_self, Option.bind_some, bind_apply, takeWhile_append hcs hstop,
    Option.bind_some, bind_apply, char_self]
  rfl

end Toml

end BoundSql
