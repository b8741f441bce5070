import BoundSql.Query.Fragment
import BoundSql.Schema.Table

/-!
# Creating and dropping tables

Statements without values that create a table from its definition, or drop one.  The assertion
about them is left to `Build.asserted`.
-/

namespace BoundSql

/-- Whether and how a table is declared temporary. -/
inductive Temporary where
  | no
  | temp
  | temporary
deriving DecidableEq, Repr

/-- The keyword with a trailing space. -/
def Temporary.sql : Temporary → String
  | no => ""
  | temp => "TEMP "
  | temporary => "TEMPORARY "

/-- How a table is created. -/
structure CreateOptions where
  temporary : Temporary := .no
  ifNotExists : Bool := false
  withoutRowid : Bool := false
  /-- The statement is run, not only built. -/
  execute : Bool := true
deriving DecidableEq, Repr

namespace TableDef

/-- The statement that creates a table. -/
def create (t : TableDef) (name : String) (options : CreateOptions) : Except Error Statement :=
  if t.columns.isEmpty then .error (.noData "create_table")
  else do
    let lines ← t.lines
    return .text ("CREATE " ++ options.temporary.sql ++ "TABLE " ++
      (if options.ifNotExists then "IF NOT EXISTS " else "") ++ name ++
      " (" ++ ", ".intercalate lines ++ ")" ++
      (if options.withoutRowid then " WITHOUT ROWID" else ""))

end TableDef

/-- The removal of a table. -/
structure DropTable where
  table : String
  ifExists : Bool := false
  /-- The statement is run, not only built. -/
  execute : Bool := true
deriving DecidableEq, Repr

/-- The statement that drops a table. -/
def DropTable.statement (q : DropTable) : Statement :=
  .text ("DROP TABLE " ++ (if q.ifExists then "IF EXISTS " else "") ++ q.table)

end BoundSql
