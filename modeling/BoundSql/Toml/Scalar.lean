import BoundSql.Calendar.Date
import BoundSql.Toml.Basic
import BoundSql.Toml.Lexical

/-!
# Numbers and moments of TOML

Readers for integers, floating-point numbers, dates and times.  An integer must fit 64 bits with
sign.  A moment is kept as its text, in which the letters are upper case, a fraction has at most
nine digits and no zeros at its end, and a zero offset has a plus sign.
-/

namespace BoundSql

namespace Toml

/-! ### Numbers -/

/-- Reads digits, which may have single underscores in between. -/
def digits (ok : Char → Bool) : Reader (List Char) := do
  let c ← Reader.satisfying ok
  let cs ← Reader.many (Reader.satisfying ok <|> (do Reader.char '_'; Reader.satisfying ok))
  return c :: cs

/-- Reads a sign, and answers whether it is a minus sign. -/
def sign : Reader Bool := do
  let c ← Reader.optional (Reader.satisfying fun c => c == '+' || c == '-')
  return c == some '-'

/-- Reads the digits of a decimal integer, without leading zeros. -/
def wholeDigits : Reader (List Char) :=
  (do Reader.char '0'; return ['0']) <|> digits Char.isDigit

/-- The integer, if 64 bits with sign hold it. -/
def int64? (i : Int) : Option Toml :=
  if Int64.minValue.toInt ≤ i ∧ i ≤ Int64.maxValue.toInt then some (.integer (Int64.ofInt i))
  else none

/-- Reads an integer whose digits in this base follow a zero and a letter. -/
def radix (letter : Char) (base : Nat) : Reader Toml := do
  Reader.exactly ['0', letter]
  let ds ← digits (Text.isDigitOf base)
  liftM (int64? (Text.numberOf base ds))

/-- Reads a decimal integer. -/
def decimal : Reader Toml := do
  let negative ← sign
  let ds ← wholeDigits
  let n : Int := Text.decimalOf ds
  liftM (int64? (if negative then -n else n))

/-- Reads an integer. -/
def integral : Reader Toml :=
  radix 'x' 16 <|> radix 'o' 8 <|> radix 'b' 2 <|> decimal

/-- Reads an exponent. -/
def exponent : Reader Int := do
  let _ ← Reader.satisfying fun c => c == 'e' || c == 'E'
  let negative ← sign
  let ds ← digits Char.isDigit
  let n : Int := Text.decimalOf ds
  return if negative then -n else n

/-- Reads a fraction and an exponent, or only one of them. -/
def decimals : Reader (List Char × Int) :=
  (do
    Reader.char '.'
    let ds ← digits Char.isDigit
    let e ← Reader.optional exponent
    return (ds, e.getD 0)) <|>
  (do let e ← exponent; return ([], e))

/-- Reads a floating-point number in digits.  One above the range is refused; one below it is minus
infinity. -/
def finite : Reader Toml := do
  let negative ← sign
  let ds ← wholeDigits
  let (fs, e) ← decimals
  let magnitude := Binary64.ofDecimal (Text.decimalOf (ds ++ fs)) (e - fs.length)
  if magnitude = Binary64.infinityMagnitude ∧ !negative then failure
  return .real (Binary64.ofMagnitude negative magnitude)

/-- Reads infinity or NaN. -/
def special : Reader Toml := do
  let negative ← sign
  (do Reader.exactly ['i', 'n', 'f']; return .real (Binary64.infinity negative)) <|>
    (do Reader.exactly ['n', 'a', 'n']; return .real Binary64.nan)

/-! ### Moments -/

/-- Reads so many decimal digits. -/
def fixed : Nat → Reader (List Char)
  | 0 => pure []
  | n + 1 => do
    let c ← Reader.satisfying Char.isDigit
    let cs ← fixed n
    return c :: cs

/-- Reads two digits that write a number up to the limit. -/
def twoDigits (limit : Nat) : Reader (List Char) := do
  let ds ← fixed 2
  if Text.decimalOf ds ≤ limit then return ds else failure

/-- Reads a date. -/
def date : Reader (List Char) := do
  let year ← fixed 4
  Reader.char '-'
  let month ← fixed 2
  Reader.char '-'
  let day ← fixed 2
  let _ ← liftM (Calendar.Date.ofYmd? (Text.decimalOf year) (Text.decimalOf month)
    (Text.decimalOf day))
  return year ++ '-' :: (month ++ '-' :: day)

/-- The text of a fraction of a second: its first nine digits without zeros at the end. -/
def fractionText (ds : List Char) : List Char :=
  let kept := ((ds.take 9).reverse.dropWhile (· == '0')).reverse
  if kept.isEmpty then [] else '.' :: kept

/-- Reads a time of day. -/
def time : Reader (List Char) := do
  let hour ← twoDigits 23
  Reader.char ':'
  let minute ← twoDigits 59
  Reader.char ':'
  let second ← twoDigits 60
  let fraction ← Reader.optional (do Reader.char '.'; Reader.takeWhile1 Char.isDigit)
  return hour ++ ':' :: (minute ++ ':' :: (second ++ fractionText (fraction.getD [])))

/-- Reads an offset from universal time. -/
def offset : Reader (List Char) :=
  (do
    let _ ← Reader.satisfying fun c => c == 'Z' || c == 'z'
    return ['Z']) <|>
  (do
    let c ← Reader.satisfying fun c => c == '+' || c == '-'
    let hour ← twoDigits 23
    Reader.char ':'
    let minute ← twoDigits 59
    let zero := Text.decimalOf (hour ++ minute) = 0
    return (if zero then '+' else c) :: (hour ++ ':' :: minute))

/-- Reads a time of day after a date. -/
def timeAfterDate : Reader (List Char) := do
  let _ ← Reader.satisfying fun c => c == 'T' || c == 't' || c == ' '
  let t ← time
  let o ← Reader.optional offset
  return 'T' :: (t ++ o.getD [])

/-- Reads a date, a time or both. -/
def dateOrTime : Reader Toml := do
  let cs ←
    (do
      let d ← date
      let t ← Reader.optional timeAfterDate
      return d ++ t.getD []) <|> time
  return .moment (String.ofList cs)

/-! ### Scalars -/

/-- Reads a value that contains no other. -/
def scalar : Reader Toml :=
  .text <$> string <|>
  dateOrTime <|>
  finite <|>
  special <|>
  integral <|>
  (do Reader.exactly ['t', 'r', 'u', 'e']; return .boolean true) <|>
  (do Reader.exactly ['f', 'a', 'l', 's', 'e']; return .boolean false)

end Toml

end BoundSql
