import BoundSql.Decimal.Scaled
import BoundSql.Json.Basic
import BoundSql.Text.Digit
import BoundSql.Text.Reader

/-!
# Reading JSON

`Json.ofText?` reads a strict document: no comments, no trailing commas, no leading zeros, no
control characters in strings, and nothing but white space around the document.  Containers nest at
most `Json.maxDepth` deep.  A number beyond the range of binary floating point is refused; one
too small becomes zero.
-/

namespace BoundSql

namespace Json

/-- How deep containers nest at most. -/
def maxDepth : Nat := 127

/-- White space between the tokens of a document. -/
def isSpace (c : Char) : Bool := c == ' ' || c == '\t' || c == '\n' || c == '\r'

/-- Skips white space. -/
def spaces : Reader Unit := do
  let _ ← Reader.takeWhile isSpace

/-! ### Strings -/

/-- The character that a one-letter escape stands for. -/
def escaped? (c : Char) : Option Char :=
  match c with
  | '"' => some '"'
  | '\\' => some '\\'
  | '/' => some '/'
  | 'b' => some '\x08'
  | 'f' => some '\x0c'
  | 'n' => some '\n'
  | 'r' => some '\r'
  | 't' => some '\t'
  | _ => none

/-- Reads the characters of a string up to its closing quote, as code points; an escape with four
hexadecimal digits may be half of a surrogate pair. -/
def units : Reader (List Nat)
  | [] => none
  | '"' :: s => some ([], s)
  | '\\' :: 'u' :: a :: b :: c :: d :: s =>
    if [a, b, c, d].all (Text.isDigitOf 16) then
      (units s).map fun (us, r) => (Text.numberOf 16 [a, b, c, d] :: us, r)
    else none
  | '\\' :: c :: s =>
    match escaped? c with
    | some x => (units s).map fun (us, r) => (x.toNat :: us, r)
    | none => none
  | c :: s =>
    if c.toNat < 0x20 ∨ c = '\\' then none
    else (units s).map fun (us, r) => (c.toNat :: us, r)

/-- The characters of code points in which surrogates stand in pairs only. -/
def paired? : List Nat → Option (List Char)
  | [] => some []
  | [u] => if u < 0xd800 ∨ 0xe000 ≤ u then some [Char.ofNat u] else none
  | u :: v :: us =>
    if u < 0xd800 ∨ 0xe000 ≤ u then (paired? (v :: us)).map (Char.ofNat u :: ·)
    else if u < 0xdc00 ∧ 0xdc00 ≤ v ∧ v < 0xe000 then
      (paired? us).map (Char.ofNat (0x10000 + (u - 0xd800) * 0x400 + (v - 0xdc00)) :: ·)
    else none

/-- Reads a string. -/
def quoted : Reader String := do
  Reader.char '"'
  let us ← units
  let cs ← liftM (paired? us)
  return String.ofList cs

/-! ### Numbers -/

/-- The floating-point number of a decimal, unless it is out of range. -/
def real? (negative : Bool) (d : Decimal) : Option Number :=
  let magnitude := d.scaled
  if magnitude < Binary64.infinityMagnitude then
    some (.real (Binary64.ofMagnitude negative magnitude))
  else none

/-- The number of a whole literal: an integer if 64 bits hold it, and zero with a sign is not one. -/
def whole? (negative : Bool) (digits : List Char) : Option Number :=
  let n := Text.decimalOf digits
  if negative then
    if 0 < n ∧ n ≤ 0x8000000000000000 then some (.integer (-n))
    else real? true (Decimal.takeWhole 0 digits)
  else
    if n < UInt64.size then some (.integer n) else real? false (Decimal.takeWhole 0 digits)

/-- Reads the digits before the point: a single zero, or digits that do not start with zero. -/
def wholeDigits : Reader (List Char) := do
  let c ← Reader.satisfying Char.isDigit
  if c = '0' then return [c]
  let cs ← Reader.takeWhile Char.isDigit
  return c :: cs

/-- Reads an exponent. -/
def exponent : Reader Int := do
  let _ ← Reader.satisfying fun c => c == 'e' || c == 'E'
  let sign ← Reader.optional (Reader.satisfying fun c => c == '+' || c == '-')
  let digits ← Reader.takeWhile1 Char.isDigit
  let n : Int := Text.decimalOf digits
  return if sign = some '-' then -n else n

/-- Reads a number. -/
def numeral : Reader Number := do
  let sign ← Reader.optional (Reader.char '-')
  let digits ← wholeDigits
  let fraction ← Reader.optional (do Reader.char '.'; Reader.takeWhile1 Char.isDigit)
  let power ← Reader.optional exponent
  match fraction, power with
  | none, none => liftM (whole? sign.isSome digits)
  | _, _ =>
    liftM (real? sign.isSome (Decimal.ofLiteral digits (fraction.getD []) (power.getD 0)))

/-! ### Documents -/

/-- Reads a value that contains no other. -/
def scalar : Reader Json :=
  (do Reader.exactly ['n', 'u', 'l', 'l']; return .null) <|>
  (do Reader.exactly ['t', 'r', 'u', 'e']; return .boolean true) <|>
  (do Reader.exactly ['f', 'a', 'l', 's', 'e']; return .boolean false) <|>
  .string <$> quoted <|>
  .number <$> numeral

/-- Reads an array whose items `item` reads. -/
def arrayOf (item : Reader Json) : Reader Json := do
  Reader.char '['
  spaces
  let items ← Reader.separated (do let j ← item; spaces; return j) (do Reader.char ','; spaces)
  Reader.char ']'
  return .array items

/-- Reads an object whose values `item` reads. -/
def objectOf (item : Reader Json) : Reader Json := do
  Reader.char '\x7b'
  spaces
  let members ← Reader.separated
    (do
      let name ← quoted
      spaces
      Reader.char ':'
      spaces
      let j ← item
      spaces
      return (name, j))
    (do Reader.char ','; spaces)
  Reader.char '\x7d'
  return .object members

/-- Reads a value with at most so many containers inside one another. -/
def value : Nat → Reader Json
  | 0 => scalar
  | depth + 1 => scalar <|> arrayOf (value depth) <|> objectOf (value depth)

/-- Reads a value with white space around it. -/
def document : Reader Json := do
  spaces
  let j ← value maxDepth
  spaces
  return j

/-- The document that a text writes, with all members of its objects in the order of the text. -/
def ofText? (text : String) : Option Json :=
  document.whole text.toList

/-- The document that a text writes, as plain data. -/
def ofTextCanonical? (text : String) : Option Json :=
  (ofText? text).map canonical

end Json

end BoundSql
