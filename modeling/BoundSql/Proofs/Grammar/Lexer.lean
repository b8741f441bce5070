import BoundSql.Query.Expr

/-!
# Tokens of an expression

A text is read symbol by symbol.  White space, parentheses, commas and question marks end what
stands in front of them; operators are as long as they can be; words run over letters, digits and
quoted parts, and words that the grammar uses are told from names in any letter case.  A text of the
caller inside an expression is one symbol, so that nothing is read into it.

`Grammar.lex` is the list of tokens.  `Reads.ends` is the one fact about it that the rendering of
expressions needs: what stands on the two sides of a symbol that ends a token is read separately.
-/

namespace BoundSql

namespace Grammar

/-! ### Symbols and tokens -/

/-- A character, or a text of the caller that is not looked into. -/
inductive Symbol where
  | char (c : Char)
  | raw (text : String)
deriving DecidableEq, Repr

/-- The characters that a symbol stands for. -/
def Symbol.chars : Symbol → List Char
  | char c => [c]
  | raw text => text.toList

/-- The symbols of a text that is looked into. -/
def spell (s : String) : List Symbol := s.toList.map .char

theorem flatMap_chars_spell (s : String) : (spell s).flatMap Symbol.chars = s.toList := by
  rw [spell, List.flatMap_map]
  exact List.flatMap_singleton' s.toList

/-- What stands between two operands of a comparison. -/
inductive Comparator where
  | operator (o : Operator)
  | like
deriving DecidableEq, Repr

/-- A token of an expression. -/
inductive Token where
  | name (s : String)
  /-- A placeholder. -/
  | mark
  | raw (text : String)
  | left
  | right
  | comma
  | arithmetic (op : Arithmetic)
  | compare (c : Comparator)
  | is
  | null
  | isIn
  | between
  | not
  | and
  | or
  /-- Anything that has no place in the grammar. -/
  | other (text : List Char)
deriving DecidableEq, Repr

/-- The token of a character that is one by itself. -/
def punctuation? (c : Char) : Option Token :=
  if c = '(' then some .left
  else if c = ')' then some .right
  else if c = ',' then some .comma
  else if c = '?' then some .mark
  else none

/-- The token of an operator. -/
def operator? (text : List Char) : Option Token :=
  match Operator.all.find? fun o => o.sql.toList == text with
  | some o => some (.compare (.operator o))
  | none =>
    ([.add, .sub, .mul, .div].find? fun op => op.sql.toList == text).map Token.arithmetic

/-- The words that the grammar uses. -/
def reserved : List (List Char × Token) :=
  [("AND".toList, .and), ("OR".toList, .or), ("NOT".toList, .not), ("LIKE".toList, .compare .like),
    ("IS".toList, .is), ("NULL".toList, .null), ("IN".toList, .isIn), ("BETWEEN".toList, .between)]

/-- The token of a word: a literal is no name, and neither is a word that the grammar uses. -/
def word (text : List Char) : Token :=
  if text.any (· == '\x27') || text.head?.any fun c => c.isDigit || c == '.' then .other text
  else (reserved.lookup (text.map Char.toUpper)).getD (.name (String.ofList text))

/-- A character that can stand in a word, or that begins a quoted part of one. -/
def isWordChar (c : Char) : Bool :=
  c.isAlphanum || c == '_' || c == '$' || c == '.' || 128 ≤ c.toNat ||
    (Placeholder.closing? c).isSome

/-! ### Reading -/

/-- What is being read. -/
inductive State where
  /-- Nothing yet. -/
  | between
  | operator (text : List Char)
  | word (text : List Char)
  /-- A quoted part of a word, up to this character. -/
  | quoted (close : Char) (text : List Char)
deriving DecidableEq, Repr

namespace State

/-- The token that ends here. -/
def flush : State → List Token
  | between => []
  | operator text => [(operator? text).getD (.other text)]
  | word text => [Grammar.word text]
  | quoted _ text => [.other text]

/-- A quote has not been closed. -/
def isOpen : State → Bool
  | quoted _ _ => true
  | _ => false

/-- Goes on with a character of a word. -/
def letter (st : State) (c : Char) : List Token × State :=
  let (ts, text) := match st with
    | word text => ([], text)
    | st => (st.flush, [])
  match Placeholder.closing? c with
  | some close => (ts, quoted close (text ++ [c]))
  | none => (ts, word (text ++ [c]))

/-- Goes on with a character of an operator. -/
def sign (st : State) (c : Char) : List Token × State :=
  match st with
  | operator text =>
    if (operator? (text ++ [c])).isSome then ([], operator (text ++ [c]))
    else (st.flush, operator [c])
  | st => (st.flush, operator [c])

/-- Goes on with a symbol: the tokens that it ends, and what is being read then. -/
def step (st : State) : Symbol → List Token × State
  | .raw text => (st.flush ++ [.raw text], between)
  | .char c =>
    match st with
    | quoted close text =>
      ([], if c = close then word (text ++ [c]) else quoted close (text ++ [c]))
    | st =>
      if c.isWhitespace then (st.flush, between)
      else match punctuation? c with
        | some t => (st.flush ++ [t], between)
        | none => if isWordChar c then st.letter c else st.sign c

/-- The tokens that end in a text, and what is being read at its end. -/
def run : State → List Symbol → List Token × State
  | st, [] => ([], st)
  | st, s :: l => ((st.step s).1 ++ ((st.step s).2.run l).1, ((st.step s).2.run l).2)

theorem run_append (st : State) (l m : List Symbol) :
    st.run (l ++ m) = ((st.run l).1 ++ ((st.run l).2.run m).1, ((st.run l).2.run m).2) := by
  induction l generalizing st with
  | nil => rfl
  | cons s l ih =>
    rw [List.cons_append, run, ih]
    simp only [run, List.append_assoc]

end State

/-- The tokens of a text. -/
def lex (l : List Symbol) : List Token :=
  (State.between.run l).1 ++ (State.between.run l).2.flush

/-! ### Texts that are read by themselves -/

/-- A text with these tokens that does not end in quotes. -/
structure Reads (l : List Symbol) (ts : List Token) : Prop where
  closed : (State.between.run l).2.isOpen = false
  tokens : lex l = ts

/-- Outside quotes, the symbol ends what is being read, and stands for these tokens. -/
def Ends (s : Symbol) (ts : List Token) : Prop :=
  ∀ st : State, st.isOpen = false → st.step s = (st.flush ++ ts, .between)

theorem ends_blank : Ends (.char ' ') [] := by
  intro st h
  cases st with
  | quoted close text => cases h
  | _ => exact congrArg (·, State.between) (List.append_nil _).symm

theorem ends_left : Ends (.char '(') [.left] := by
  intro st h
  cases st with
  | quoted close text => cases h
  | _ => rfl

theorem ends_right : Ends (.char ')') [.right] := by
  intro st h
  cases st with
  | quoted close text => cases h
  | _ => rfl

theorem ends_comma : Ends (.char ',') [.comma] := by
  intro st h
  cases st with
  | quoted close text => cases h
  | _ => rfl

theorem reads_nil : Reads [] [] := ⟨rfl, rfl⟩

theorem reads_raw (text : String) : Reads [.raw text] [.raw text] := ⟨rfl, rfl⟩

/-- **What stands on the two sides of the end of a token is read separately.** -/
theorem Reads.ends {l m : List Symbol} {s : Symbol} {ts us vs : List Token} (hl : Reads l ts)
    (hs : Ends s us) (hm : Reads m vs) : Reads (l ++ s :: m) (ts ++ us ++ vs) := by
  obtain ⟨hc, ht⟩ := hl
  have hr : State.between.run (l ++ s :: m) =
      (ts ++ us ++ (State.between.run m).1, (State.between.run m).2) := by
    rw [State.run_append, State.run, hs _ hc, ← ht]
    simp only [lex, List.append_assoc]
  refine ⟨?_, ?_⟩
  · rw [hr]
    exact hm.closed
  · rw [lex, hr, ← hm.tokens, lex]
    simp only [List.append_assoc]

theorem Reads.blank {l m : List Symbol} {ts us : List Token} (hl : Reads l ts) (hm : Reads m us) :
    Reads (l ++ .char ' ' :: m) (ts ++ us) := by
  have h := hl.ends ends_blank hm
  rwa [List.append_nil] at h

/-- A text in parentheses. -/
theorem Reads.group {l : List Symbol} {ts : List Token} (hl : Reads l ts) :
    Reads (.char '(' :: l ++ [.char ')']) (.left :: ts ++ [.right]) := by
  have h := reads_nil.ends ends_left (hl.ends ends_right reads_nil)
  rwa [List.append_nil] at h

/-- A text that is one name does not end in quotes. -/
theorem reads_name {n : String} (h : lex (spell n) = [.name n]) : Reads (spell n) [.name n] := by
  refine ⟨?_, h⟩
  rw [lex] at h
  generalize State.between.run (spell n) = r at h ⊢
  obtain ⟨ts, st⟩ := r
  cases st with
  | quoted close text =>
    -- an open quote ends in a token that is no name
    have hlast := congrArg List.getLast? h
    rw [State.flush, List.getLast?_append] at hlast
    cases hlast
  | _ => rfl

end Grammar

end BoundSql
