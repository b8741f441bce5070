import BoundSql.Query.Insert
import BoundSql.Query.Where

/-!
# Updates and deletions

An update assigns values or expressions to columns, in the order given, for the rows that a filter
selects; a deletion removes them.  The assertion about their statements is left to `Build.asserted`.
-/

namespace BoundSql

/-- What is assigned to a column. -/
inductive Assigned where
  | value (v : Value)
  /-- An expression, written where it stands. -/
  | expr (e : Expr)
deriving DecidableEq, Repr

/-- An assignment to a column. -/
structure Assignment where
  column : String
  assigned : Assigned
deriving DecidableEq, Repr

namespace Assignment

/-- Assignments of values. -/
def ofBindings (b : Bindings) : List Assignment :=
  b.map fun (column, v) => ⟨column, .value v⟩

/-- The assignments of a call's data, where a list stands for columns and values in turn. -/
def ofArguments (args : Arguments) : Except Error (List Assignment) := do
  let b ← args.toBindings "update"
  return ofBindings b

/-- The assignments of a document. -/
def ofJson (j : Json) : Except Error (List Assignment) := ofArguments (.ofJson j)

/-- What stands to the right of the equals sign. -/
def right : Assigned → Except Error Fragment
  | .value v => .ok (.placeholder v)
  | .expr e => e.render.checked "set"

/-- The text of an assignment. -/
def entry (a : Assignment) : Except Error Fragment := do
  let f ← right a.assigned
  return .text (a.column ++ " = ") ++ f

/-- The clause of assignments, of which there must be one. -/
def clause (assignments : List Assignment) : Except Error Fragment :=
  if assignments.isEmpty then .error (.noData "update")
  else do
    let fs ← assignments.mapM entry
    return .text " SET " ++ .joined ", " fs

end Assignment

/-- An update with all its clauses. -/
structure Update where
  table : String
  assignments : List Assignment
  filter : Option Where := none
  onConflict : Option OnConflict := none
  tables : List CommonTable := []
  /-- The statement is run, not only built. -/
  execute : Bool := true
deriving DecidableEq, Repr

namespace Update

/-- The clause with the table. -/
def target (onConflict : Option OnConflict) (table : String) : Fragment :=
  match onConflict with
  | some o => .text ("UPDATE OR " ++ o.sql ++ " " ++ table)
  | none => .text ("UPDATE " ++ table)

/-- The statement of an update. -/
def statement (q : Update) : Except Error Statement := do
  let assignments ← Assignment.clause q.assignments
  let filter ← Where.clause q.filter
  CommonTable.before q.tables (target q.onConflict q.table ++ assignments ++ filter)

end Update

/-- A deletion with all its clauses. -/
structure Delete where
  table : String
  filter : Option Where := none
  tables : List CommonTable := []
  /-- The statement is run, not only built. -/
  execute : Bool := true
deriving DecidableEq, Repr

namespace Delete

/-- The clause with the table. -/
def target (table : String) : Fragment := .text ("DELETE FROM " ++ table)

/-- The statement of a deletion. -/
def statement (q : Delete) : Except Error Statement := do
  let filter ← Where.clause q.filter
  CommonTable.before q.tables (target q.table ++ filter)

end Delete

end BoundSql
