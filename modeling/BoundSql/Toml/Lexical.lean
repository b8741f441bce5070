import BoundSql.Text.Digit
import BoundSql.Text.Reader

/-!
# Lines, strings and keys of TOML

Readers for what stands between values (blanks, comments, line ends), for the four kinds of strings
and for keys.  Strings on several lines have their line ends normalised.
-/

namespace BoundSql

namespace Toml

/-! ### Blanks and lines -/

/-- White space within a line. -/
def isSpace (c : Char) : Bool := c == ' ' || c == '\t'

/-- The character may stand in comments and literal strings: a tab or no control character. -/
def isPlain (c : Char) : Bool := c == '\t' || (0x20 ≤ c.toNat && c.toNat != 0x7f)

/-- Skips white space within a line. -/
def spaces : Reader Unit := do
  let _ ← Reader.takeWhile isSpace

/-- Reads a line feed, with or without a carriage return in front. -/
def newline : Reader Unit :=
  Reader.char '\n' <|> Reader.exactly ['\r', '\n']

/-- Reads a comment up to the end of its line. -/
def comment : Reader Unit := do
  Reader.char '#'
  let _ ← Reader.takeWhile isPlain

/-- Reads the end of a line, which may be the end of the text. -/
def lineEnd : Reader Unit := newline <|> Reader.atEnd

/-- Reads what may follow a value on its line. -/
def trailing : Reader Unit := do
  spaces
  let _ ← Reader.optional comment
  lineEnd

/-- Skips white space, line ends and comments. -/
def filler : Reader Unit := do
  let _ ← Reader.many
    ((do let _ ← Reader.takeWhile1 isSpace) <|> newline <|> (do comment; newline))

/-! ### Strings -/

/-- The character that a one-letter escape stands for. -/
def escaped? (c : Char) : Option Char :=
  match c with
  | 'b' => some '\x08'
  | 't' => some '\t'
  | 'n' => some '\n'
  | 'f' => some '\x0c'
  | 'r' => some '\r'
  | '"' => some '"'
  | '\\' => some '\\'
  | _ => none

/-- The character with the code point that hexadecimal digits write. -/
def scalar? (digits : List Char) : Option Char :=
  let n := Text.numberOf 16 digits
  if digits.all (Text.isDigitOf 16) && (n < 0xd800 || (0xe000 ≤ n && n < 0x110000)) then
    some (Char.ofNat n)
  else none

/-- Reads what follows the backslash of an escape. -/
def escape : Reader Char
  | 'u' :: a :: b :: c :: d :: s => (scalar? [a, b, c, d]).map fun x => (x, s)
  | 'U' :: a :: b :: c :: d :: e :: f :: g :: h :: s =>
    (scalar? [a, b, c, d, e, f, g, h]).map fun x => (x, s)
  | c :: s => (escaped? c).map fun x => (x, s)
  | [] => none

/-- Reads one character of a basic string. -/
def basicChar : Reader Char :=
  (do Reader.char '\\'; escape) <|>
  Reader.satisfying fun c => isPlain c && c != '"' && c != '\\'

/-- Reads a basic string. -/
def basic : Reader String := do
  Reader.char '"'
  let cs ← Reader.many basicChar
  Reader.char '"'
  return String.ofList cs

/-- Reads a literal string. -/
def literal : Reader String := do
  Reader.char '\x27'
  let cs ← Reader.takeWhile fun c => isPlain c && c != '\x27'
  Reader.char '\x27'
  return String.ofList cs

/-- Reads a line end as a line feed. -/
def lineFeed : Reader Char := do
  newline
  return '\n'

/-- Skips a backslash at the end of a line, and all white space and line ends after it. -/
def continuation : Reader Unit := do
  Reader.char '\\'
  spaces
  newline
  let _ ← Reader.many ((do let _ ← Reader.takeWhile1 isSpace) <|> newline)

/-- Reads a quote that does not begin the three that close a string. -/
def innerQuote (q : Char) : Reader Char := fun s =>
  match s with
  | a :: b :: c :: rest =>
    if a = q ∧ ¬(b = q ∧ c = q) then some (q, b :: c :: rest) else none
  | _ => none

/-- Reads the quotes that close a string on several lines: three, and in front of them up to two
that belong to the string. -/
def closing (q : Char) : Reader (List Char) := fun s =>
  let n := min 5 (s.takeWhile (· == q)).length
  if 3 ≤ n then some (List.replicate (n - 3) q, s.drop n) else none

/-- Reads a string on several lines in quotes `q`, whose pieces other than quotes `piece` reads. -/
def multiline (q : Char) (piece : Reader (List Char)) : Reader String := do
  Reader.exactly [q, q, q]
  let _ ← Reader.optional newline
  let pieces ← Reader.many (piece <|> (do let c ← innerQuote q; return [c]))
  let quotes ← closing q
  return String.ofList (pieces.flatten ++ quotes)

/-- Reads a basic string on several lines. -/
def multilineBasic : Reader String :=
  multiline '"'
    ((do continuation; return []) <|> (do let c ← basicChar <|> lineFeed; return [c]))

/-- Reads a literal string on several lines. -/
def multilineLiteral : Reader String :=
  multiline '\x27'
    (do
      let c ← lineFeed <|> Reader.satisfying fun c => isPlain c && c != '\x27'
      return [c])

/-- Reads a string of any kind. -/
def string : Reader String :=
  multilineBasic <|> multilineLiteral <|> basic <|> literal

/-! ### Keys -/

/-- The character may stand in a key without quotes. -/
def isBare (c : Char) : Bool := c.isAlphanum || c == '-' || c == '_'

/-- Reads one part of a key. -/
def keyPart : Reader String :=
  basic <|> literal <|> String.ofList <$> Reader.takeWhile1 isBare

/-- A key has fewer parts than this. -/
def maxKeyParts : Nat := 80

/-- A key: the tables it leads through, and its last part. -/
structure Key where
  path : List String
  last : String
deriving DecidableEq, Repr

/-- The key with these parts, of which there must be one. -/
def Key.ofParts? (parts : List String) : Option Key :=
  match parts.getLast? with
  | some last => if parts.length < maxKeyParts then some ⟨parts.dropLast, last⟩ else none
  | none => none

/-- All parts of a key in order. -/
def Key.parts (k : Key) : List String := k.path ++ [k.last]

/-- Reads a key with white space around it and around its dots. -/
def key : Reader Key := do
  let parts ← Reader.separated1 (do spaces; let k ← keyPart; spaces; return k) (Reader.char '.')
  liftM (Key.ofParts? parts)

end Toml

end BoundSql
