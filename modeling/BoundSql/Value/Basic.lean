import BoundSql.Decimal.Layout

/-!
# Values

A `Value` is what one placeholder of a statement is bound to, and what one cell of a result holds:
one of the five storage classes of SQLite.  Truth values are stored as integers and dates as text.
-/

namespace BoundSql

/-- A value of one of the five storage classes. -/
inductive Value where
  | null
  | integer (i : Int64)
  | real (x : Binary64)
  | text (s : String)
  | blob (bytes : List UInt8)
deriving DecidableEq, Inhabited, Repr

/-- The values of one row, in column order. -/
abbrev Row := List Value

namespace Value

/-- A truth value is stored as one or zero. -/
def ofBool (b : Bool) : Value := .integer (if b then 1 else 0)

/-- A value that may be missing is stored as null when it is. -/
def ofOption {α : Type} (f : α → Value) : Option α → Value
  | some a => f a
  | none => .null

/-- The value is null. -/
def isNull : Value → Bool
  | .null => true
  | _ => false

/-- The text, if the value is one. -/
def text? : Value → Option String
  | .text s => some s
  | _ => none

/-- The integer, if the value is one. -/
def int? : Value → Option Int64
  | .integer i => some i
  | _ => none

/-- The name of the storage class. -/
def kind : Value → String
  | .null => "null"
  | .integer _ => "integer"
  | .real _ => "real"
  | .text _ => "text"
  | .blob _ => "blob"

/-- The value for a reader: text as it is, and of a blob its size only. -/
def display : Value → String
  | .null => "NULL"
  | .integer i => toString i.toInt
  | .real x => x.display
  | .text s => s
  | .blob bytes => "[" ++ toString bytes.length ++ " bytes]"

end Value

end BoundSql
