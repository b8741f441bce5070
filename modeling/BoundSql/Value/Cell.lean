import BoundSql.Text.Utf8
import BoundSql.Value.Basic

/-!
# Cells

How values go to the engine and come back.  A `Cell` is what the engine holds: text is any bytes,
whether they are UTF-8 or not.  `Value.toCell` binds a value, `Value.ofCell` reads a cell, decoding
text with replacement characters for what is not UTF-8.
-/

namespace BoundSql

/-- The content of one cell of a table. -/
inductive Cell where
  | null
  | integer (i : Int64)
  | real (x : Binary64)
  | text (bytes : List UInt8)
  | blob (bytes : List UInt8)
deriving DecidableEq, Repr

/-- How a bound value is handed over. -/
inductive Ownership where
  /-- The engine receives a copy. -/
  | owned
  /-- The engine reads the bytes of the value. -/
  | borrowed
deriving DecidableEq, Repr

namespace Value

/-- The cell that a bound value becomes. -/
def toCell : Value → Cell
  | .null => .null
  | .integer i => .integer i
  | .real x => .real x
  | .text s => .text (Utf8.encode s.toList)
  | .blob bytes => .blob bytes

/-- The value that a cell is read as. -/
def ofCell : Cell → Value
  | .null => .null
  | .integer i => .integer i
  | .real x => .real x
  | .text bytes => .text (String.ofList (Utf8.decode bytes))
  | .blob bytes => .blob bytes

/-- Fixed-size values are copied, texts and blobs are lent. -/
def ownership : Value → Ownership
  | .text _ => .borrowed
  | .blob _ => .borrowed
  | _ => .owned

end Value

end BoundSql
