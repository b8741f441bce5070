/-!
# Placeholders outside quotes

A question mark in the text of a statement is a placeholder unless it stands in quotes: between two
single quotes, double quotes or back quotes, or between square brackets.  The scanner keeps the
character that will close the quote it is in.  A doubled quote inside a quoted text closes the quote
and opens it again, so it needs no rule of its own.

Scanning is compositional: `Placeholder.after_append` and `Placeholder.count_append` give the state
and the count after two texts in a row.
-/

namespace BoundSql

namespace Placeholder

/-- The character that marks a placeholder. -/
def mark : Char := '?'

/-- The character that closes the quote that `c` opens, if it opens one. -/
def closing? (c : Char) : Option Char :=
  if c = '\x27' ∨ c = '\x22' ∨ c = '\x60' then some c
  else if c = '[' then some ']'
  else none

/-- The state after one character, where the state is the character that closes the quote the
scanner is in, or `none` outside quotes. -/
def step (state : Option Char) (c : Char) : Option Char :=
  match state with
  | none => closing? c
  | some close => if c = close then none else some close

/-- The state after a text. -/
def after (state : Option Char) (s : List Char) : Option Char := s.foldl step state

/-- The number of placeholders in a text that starts in this state. -/
def count : Option Char → List Char → Nat
  | _, [] => 0
  | state, c :: s => (if state = none ∧ c = mark then 1 else 0) + count (step state c) s

/-- The number of placeholders in the text of a statement. -/
def countIn (script : String) : Nat := count none script.toList

@[simp] theorem after_nil (state : Option Char) : after state [] = state := rfl

@[simp] theorem after_cons (state : Option Char) (c : Char) (s : List Char) :
    after state (c :: s) = after (step state c) s := rfl

theorem after_append (state : Option Char) (s t : List Char) :
    after state (s ++ t) = after (after state s) t := by
  simp only [after, List.foldl_append]

theorem count_append (state : Option Char) (s t : List Char) :
    count state (s ++ t) = count state s + count (after state s) t := by
  induction s generalizing state with
  | nil => simp only [List.nil_append, count, after_nil, Nat.zero_add]
  | cons c s ih => simp only [List.cons_append, count, after_cons, ih, Nat.add_assoc]

/-- The text of `n` placeholders in a list. -/
def list (n : Nat) : String := ", ".intercalate (List.replicate n "?")

end Placeholder

end BoundSql
