import BoundSql.Query.Fragment

/-!
# Common table expressions

Statements that are given a name in front of another statement.  `CommonTable.header` is the text
in front; its values come before all values of the statement behind it.
-/

namespace BoundSql

/-- A statement with a name. -/
structure CommonTable where
  name : String
  statement : Statement
deriving DecidableEq, Repr

namespace CommonTable

/-- The definition of one name. -/
def definition (c : CommonTable) : Except Error Fragment := do
  let f ← c.statement.checked "with"
  return .text (c.name ++ " AS ") ++ f.parenthesized

/-- The text in front of a statement, nothing without names. -/
def header (tables : List CommonTable) : Except Error Fragment := do
  let definitions ← tables.mapM definition
  return if tables.isEmpty then .empty
    else .text "WITH " ++ .joined ", " definitions ++ .text " "

/-- A statement with the names in front. -/
def before (tables : List CommonTable) (s : Statement) : Except Error Statement := do
  let h ← header tables
  return h ++ s

/-- A batch with the names in front; their values lead every row. -/
def beforeBatch (tables : List CommonTable) (b : Batch) : Except Error Batch := do
  let h ← header tables
  return ⟨h.script ++ b.script, b.rows.map fun row => h.values ++ row⟩

end CommonTable

end BoundSql
