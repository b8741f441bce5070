import BoundSql.Query.Fragment

/-!
# Engines

An engine runs statements and knows the tables there are.  Nothing is assumed of it: what it answers
may depend on its state in any way, and any request may change the state, also one that fails.  A
`Request` says what was asked of an engine, so that the requests of two runs can be compared.
-/

namespace BoundSql

/-- A column of a table with its position, counted from one. -/
structure ColumnDescriptor where
  ordinal : Nat
  name : String
deriving DecidableEq, Repr

/-- Something asked of an engine. -/
inductive Request where
  /-- Run one statement. -/
  | execute (s : Statement)
  /-- Run one text once for each row of values. -/
  | executeMany (b : Batch)
  /-- Run several statements without values. -/
  | executeScript (script : String)
  /-- List the columns of a table. -/
  | describeTable (table : String)
  /-- List the tables. -/
  | listTables
deriving DecidableEq, Repr

/-- The request may write to tables. -/
def Request.isRun : Request → Bool
  | .execute _ | .executeMany _ | .executeScript _ => true
  | .describeTable _ | .listTables => false

/-- An answer of an engine and its state afterwards. -/
abbrev Engine.Action (σ α : Type) := σ → Except Error α × σ

/-- How an engine with states `σ` answers each kind of request. -/
structure Engine (σ : Type) where
  execute : Statement → Engine.Action σ (List Row)
  executeMany : Batch → Engine.Action σ (List Row)
  executeScript : String → Engine.Action σ (List Row)
  /-- The columns of a table in their order, none if there is no such table. -/
  describeTable : String → Engine.Action σ (List ColumnDescriptor)
  listTables : Engine.Action σ (List String)

end BoundSql
