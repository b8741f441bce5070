import BoundSql.Build
import BoundSql.Query.Where
import BoundSql.Query.With

/-!
# Queries

A `Select` has a clause for each of its fields, and `Select.statement` is the clauses in their fixed
order: common tables, columns and table, joins, filter, order, limit, offset.  Each clause depends
on its own field only, but for the limit: an offset is only accepted after a limit, so a lone offset
brings a limit of its own.

That the statement is asserted to be aligned is left to `Build.asserted`, for all builders alike.
-/

namespace BoundSql

/-! ### Columns -/

/-- How repeated rows are treated. -/
inductive SelectMethod where
  | plain
  | distinct
  | all
deriving DecidableEq, Repr

/-- The keywords of a method. -/
def SelectMethod.sql : SelectMethod → String
  | plain => "SELECT"
  | distinct => "SELECT DISTINCT"
  | all => "SELECT ALL"

/-- The columns of a query. -/
inductive Columns where
  | all
  | one (name : String)
  | many (names : List String)
deriving DecidableEq, Repr

/-- The text of the columns. -/
def Columns.sql : Columns → Except Error String
  | all => .ok "*"
  | one name => .ok name
  | many [] => .error (.clause "select" .emptyColumnList)
  | many names => .ok (", ".intercalate names)

/-! ### Joins -/

/-- How a table is joined. -/
inductive JoinMethod where
  | inner
  | left
  | leftOuter
  | right
  | full
  | cross
  | natural
deriving DecidableEq, Repr

/-- The keywords of a join. -/
def JoinMethod.sql : JoinMethod → String
  | inner => "INNER JOIN"
  | left => "LEFT JOIN"
  | leftOuter => "LEFT OUTER JOIN"
  | right => "RIGHT JOIN"
  | full => "FULL JOIN"
  | cross => "CROSS JOIN"
  | natural => "NATURAL JOIN"

/-- A joined table with its condition or its common columns. -/
structure Join where
  table : String
  method : JoinMethod := .inner
  on : Option Expr := none
  /-- Columns of one name that must agree. -/
  common : List String := []
deriving DecidableEq, Repr

namespace Join

/-- The clause of one join. -/
def clause (j : Join) : Except Error Fragment :=
  let head := Fragment.text (" " ++ j.method.sql ++ " " ++ j.table)
  match j.on, j.common with
  | some _, _ :: _ => .error (.clause "join" .onAndUsing)
  | some e, [] => do
    let f ← e.render.checked "join"
    return head ++ .text " ON " ++ f
  | none, [] => .ok head
  | none, columns => .ok (head ++ .text (" USING (" ++ ", ".intercalate columns ++ ")"))

/-- The clauses of joins in order. -/
def clauses (joins : List Join) : Except Error Fragment := do
  let fs ← joins.mapM clause
  return .joined "" fs

end Join

/-! ### Order and limits -/

/-- The direction of an order. -/
inductive Direction where
  | asc
  | desc
deriving DecidableEq, Repr

/-- The keyword of a direction. -/
def Direction.sql : Direction → String
  | asc => "ASC"
  | desc => "DESC"

/-- What rows are ordered by. -/
inductive OrderBy where
  | column (name : String)
  /-- A position among the columns of the query, counted from one. -/
  | position (n : Nat)
  | columns (names : List String)
  | directions (terms : List (String × Direction))
deriving DecidableEq, Repr

namespace OrderBy

/-- The terms of an order. -/
def terms : OrderBy → Except Error String
  | column name => .ok name
  | position 0 => .error (.clause "order_by" .positionZero)
  | position n => .ok (toString n)
  | columns [] => .error (.clause "order_by" .emptyColumnList)
  | columns names => .ok (", ".intercalate names)
  | directions [] => .error (.clause "order_by" .emptyColumnList)
  | directions ts => .ok (", ".intercalate (ts.map fun t => t.1 ++ " " ++ t.2.sql))

/-- The clause of an order, nothing without one. -/
def clause : Option OrderBy → Except Error Fragment
  | none => .ok .empty
  | some o => do
    let ts ← o.terms
    return .text (" ORDER BY " ++ ts)

end OrderBy

/-- The clause of a limit; without one, an offset that follows needs a limit that limits nothing. -/
def limitClause (limit : Option Nat) (offsetFollows : Bool) : Fragment :=
  match limit with
  | some n => .text (" LIMIT " ++ toString n)
  | none => if offsetFollows then .text " LIMIT -1" else .empty

/-- The clause of an offset, nothing without one. -/
def offsetClause : Option Nat → Fragment
  | some n => .text (" OFFSET " ++ toString n)
  | none => .empty

/-! ### The statement -/

/-- A query with all its clauses. -/
structure Select where
  table : String
  method : SelectMethod := .plain
  /-- Without columns all are selected, which is reported. -/
  columns : Option Columns := none
  joins : List Join := []
  filter : Option Where := none
  orderBy : Option OrderBy := none
  limit : Option Nat := none
  offset : Option Nat := none
  tables : List CommonTable := []
  /-- The statement is run, not only built. -/
  execute : Bool := true
deriving DecidableEq, Repr

namespace Select

/-- The clause with the columns and the table. -/
def base (method : SelectMethod) (columns : Option Columns) (table : String) : Build Fragment := do
  let list ← match columns with
    | none => do
      Build.report (.columnsOmitted table)
      pure "*"
    | some cs => Build.ofExcept cs.sql
  return .text (method.sql ++ " " ++ list ++ " FROM " ++ table)

/-- The statement of a query. -/
def statement (q : Select) : Build Statement := do
  let base ← base q.method q.columns q.table
  let joins ← Build.ofExcept (Join.clauses q.joins)
  let filter ← Build.ofExcept (Where.clause q.filter)
  let order ← Build.ofExcept (OrderBy.clause q.orderBy)
  let limit := limitClause q.limit q.offset.isSome
  let offset := offsetClause q.offset
  Build.ofExcept (CommonTable.before q.tables (base ++ joins ++ filter ++ order ++ limit ++ offset))

end Select

end BoundSql
