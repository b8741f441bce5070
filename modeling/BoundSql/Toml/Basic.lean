import BoundSql.Decimal.Binary64

/-!
# TOML documents

A document is a table.  The members of a table stand in the order in which their keys first appear
in the text, and no two of them have one key.
-/

namespace BoundSql

/-- A value of a document. -/
inductive Toml where
  | text (s : String)
  | integer (i : Int64)
  | real (x : Binary64)
  | boolean (b : Bool)
  /-- A date, a time or both, by its text. -/
  | moment (text : String)
  | array (items : List Toml)
  | table (members : List (String × Toml))
deriving Repr

end BoundSql
