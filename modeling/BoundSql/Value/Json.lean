import BoundSql.Json.Printer
import BoundSql.Value.Basic

/-!
# Values and JSON

Three passages between values and documents.  `Value.ofJson` takes any document as one value:
scalars by their kind, containers as their compact text.  `Row.toJson` writes a row without tags,
a blob as an array of byte numbers and a number that is not finite as null, and `Row.ofJson?` reads
such an array back.
-/

namespace BoundSql

namespace Value

/-- A number is an integer if 64 bits with sign hold it, else floating point. -/
def ofNumber (n : Json.Number) : Value :=
  match n.int64? with
  | some i => .integer i
  | none => .real n.toReal

/-- A document as one value. -/
def ofJson : Json → Value
  | .null => .null
  | .boolean b => .ofBool b
  | .number n => .ofNumber n
  | .string s => .text s
  | .array items => .text (Json.text (.array items))
  | .object members => .text (Json.text (.object members))

/-- The value written without a tag. -/
def toJson : Value → Json
  | .null => .null
  | .integer i => .number (.integer i.toInt)
  | .real x => if x.isFinite then .number (.real x) else .null
  | .text s => .string s
  | .blob bytes => .array (bytes.map fun b => .number (.integer b.toNat))

/-- The byte that an item of a blob writes. -/
def byteOfJson? : Json → Option UInt8
  | .number (.integer i) => if 0 ≤ i ∧ i < 256 then some (UInt8.ofNat i.toNat) else none
  | _ => none

/-- The value written without a tag, if the document is one. -/
def ofUntagged? : Json → Option Value
  | .null => some .null
  | .number n => some (.ofNumber n)
  | .string s => some (.text s)
  | .array items => (items.mapM byteOfJson?).map .blob
  | .boolean _ => none
  | .object _ => none

end Value

namespace Row

/-- The document of a row. -/
def toJson (row : Row) : Json := .array (row.map Value.toJson)

/-- The row of a document, if it is an array of values. -/
def ofJson? : Json → Option Row
  | .array items => items.mapM Value.ofUntagged?
  | _ => none

end Row

end BoundSql
