import BoundSql.Engine.Basic

/-!
# Scripted engines

An engine that runs no SQL.  Its tables never change, and each request to run something is answered
with the next of the outcomes it was given, with no rows once they are used up.
-/

namespace BoundSql

namespace Engine

/-- What a scripted engine answers to one request. -/
abbrev ScriptedOutcome := Except EngineFailure (List Row)

/-- The next outcome; without one there are no rows. -/
def nextOutcome : Action (List ScriptedOutcome) (List Row)
  | [] => (.ok [], [])
  | o :: rest => (o.mapError .engine, rest)

/-- The columns of a table with this name among tables, its first occurrence. -/
def columnsIn (tables : List (String × List String)) (table : String) : List ColumnDescriptor :=
  ((tables.lookup table).getD []).zipIdx.map fun (name, i) => ⟨i + 1, name⟩

/-- The engine with these tables whose state is the list of outcomes still to come. -/
def scripted (tables : List (String × List String)) : Engine (List ScriptedOutcome) where
  execute _ := nextOutcome
  executeMany _ := nextOutcome
  executeScript _ := nextOutcome
  describeTable table outcomes := (.ok (columnsIn tables table), outcomes)
  listTables outcomes := (.ok (tables.map Prod.fst), outcomes)

end Engine

end BoundSql
