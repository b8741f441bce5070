import BoundSql.Schema.Token

/-!
# Table definitions

The columns and foreign keys of a table, and the lines they become in a statement that creates it.
-/

namespace BoundSql

/-- The type and the constraints of a column. -/
inductive ColumnSpec where
  | one (t : Token)
  | many (tokens : List Token)
deriving Repr

/-- The definition of a column.  A list of tokens, given as such or as one token, is ordered by
rank. -/
def ColumnSpec.definition : ColumnSpec → Except Error String
  | .one (.list tokens) | .many tokens =>
    if tokens.isEmpty then .error .emptySequence else columnDefinition tokens
  | .one t => t.render

/-- A column that refers to a column of another table. -/
structure ForeignKey where
  column : String
  table : String
  referenced : String
deriving DecidableEq, Repr

/-- The line of a foreign key. -/
def ForeignKey.line (k : ForeignKey) : String :=
  "FOREIGN KEY (" ++ k.column ++ ") REFERENCES " ++ k.table ++ " (" ++ k.referenced ++ ")"

/-- The columns and the foreign keys of a table. -/
structure TableDef where
  columns : List (String × ColumnSpec) := []
  foreignKeys : List ForeignKey := []
deriving Repr

namespace TableDef

/-- The line of a column: its name and its definition. -/
def columnLine (column : String × ColumnSpec) : Except Error String := do
  let definition ← column.2.definition
  return column.1 ++ " " ++ definition

/-- A line for each column, then a line for each foreign key. -/
def lines (t : TableDef) : Except Error (List String) := do
  let columns ← t.columns.mapM columnLine
  return columns ++ t.foreignKeys.map ForeignKey.line

end TableDef

/-- Tables with their names, in the order in which they are created. -/
structure Template where
  tables : List (String × TableDef) := []
deriving Repr

end BoundSql
