/-!
# Readers

A reader takes characters off the front of a text and answers what they say, or fails.  A failed
reader takes nothing, so `p <|> q` tries `q` where `p` started.
-/

namespace BoundSql

/-- Reads a value off the front of a text, or fails. -/
abbrev Reader := StateT (List Char) Option

namespace Reader

variable {α β : Type}

/-- The value of a text that the reader takes whole. -/
def whole (p : Reader α) (s : List Char) : Option α :=
  match p s with
  | some (a, []) => some a
  | _ => none

/-- Reads a character that satisfies the condition. -/
def satisfying (ok : Char → Bool) : Reader Char := fun s =>
  match s with
  | c :: cs => if ok c then some (c, cs) else none
  | [] => none

/-- Reads this character. -/
def char (c : Char) : Reader Unit := do
  let _ ← satisfying (· == c)

/-- Reads these characters. -/
def exactly : List Char → Reader Unit
  | [] => pure ()
  | c :: cs => do char c; exactly cs

/-- Reads the longest run of characters that satisfy the condition. -/
def takeWhile (ok : Char → Bool) : Reader (List Char) := fun s =>
  some (s.takeWhile ok, s.dropWhile ok)

/-- Reads a run of characters that satisfy the condition, at least one. -/
def takeWhile1 (ok : Char → Bool) : Reader (List Char) := do
  let c ← satisfying ok
  let cs ← takeWhile ok
  return c :: cs

/-- Reads what `p` reads if it can. -/
def optional (p : Reader α) : Reader (Option α) :=
  (some <$> p) <|> pure none

/-- Succeeds if the text is used up. -/
def atEnd : Reader Unit := fun s =>
  match s with
  | [] => some ((), [])
  | _ => none

/-- Reads with `p` until it fails, at most `limit` times. -/
def manyUpTo (p : Reader α) : Nat → Reader (List α)
  | 0 => pure []
  | limit + 1 =>
    (do
      let a ← p
      let as ← manyUpTo p limit
      return a :: as) <|> pure []

/-- Reads with `p` until it fails.  A reader that always takes a character is never cut short,
since it can succeed once per character at most. -/
def many (p : Reader α) : Reader (List α) := fun s =>
  manyUpTo p s.length s

/-- Reads one or more with `p`, with `separator` in between. -/
def separated1 (p : Reader α) (separator : Reader β) : Reader (List α) := do
  let a ← p
  let as ← many (do let _ ← separator; p)
  return a :: as

/-- Reads any number with `p`, with `separator` in between. -/
def separated (p : Reader α) (separator : Reader β) : Reader (List α) :=
  separated1 p separator <|> pure []

end Reader

end BoundSql
