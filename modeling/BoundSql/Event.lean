import BoundSql.Error

/-!
# Events

What is reported while statements are built and run: input that did not fit and was adjusted, a
column list that was left out, and an insert that had to be tried again.  Each event has a level, a
message and named fields.
-/

namespace BoundSql

/-- Something that is reported. -/
inductive Event where
  /-- A query without a column list selects all columns. -/
  | columnsOmitted (table : String)
  /-- Values or columns beyond the shorter of the two lists were dropped. -/
  | valuesCropped (table : String) (expected given : Nat)
  /-- Rows were padded or truncated to one length. -/
  | rowsAdjusted (table : String) (arity padded truncated : Nat)
  /-- All rows leave the last columns of the table unset. -/
  | rowsNarrow (table : String) (expected given : Nat)
  /-- Values beyond the shortest column were dropped. -/
  | columnsUneven (table : String) (shortest longest : Nat)
  /-- An insert without column names failed and is tried again with them. -/
  | fastInsertFailed (table : String) (error : Error)
deriving DecidableEq, Repr

namespace Event

/-- How serious an event is. -/
inductive Level where
  | warning
  | debug
deriving DecidableEq, Repr

/-- The content of a field. -/
inductive Field where
  | number (n : Nat)
  | text (s : String)
deriving DecidableEq, Repr

/-- Adjusted input is a warning. -/
def level : Event → Level
  | fastInsertFailed _ _ => .debug
  | _ => .warning

/-- The words for an event. -/
def message : Event → String
  | columnsOmitted _ => "no columns selected; defaulting to *"
  | valuesCropped _ _ _ => "value count does not match column count; extra entries dropped"
  | rowsAdjusted _ _ _ _ => "row lengths do not match column count; rows adjusted"
  | rowsNarrow _ _ _ => "rows are narrower than the table; trailing columns left unset"
  | columnsUneven _ _ _ => "column value lists differ in length; extra values dropped"
  | fastInsertFailed _ _ => "fast-path insert failed; retrying with columns"

/-- The fields of an event with their names. -/
def fields : Event → List (String × Field)
  | columnsOmitted table => [("table", .text table)]
  | valuesCropped table expected given =>
    [("table", .text table), ("expected", .number expected), ("given", .number given)]
  | rowsAdjusted table arity padded truncated =>
    [("table", .text table), ("arity", .number arity), ("padded", .number padded),
     ("truncated", .number truncated)]
  | rowsNarrow table expected given =>
    [("table", .text table), ("expected", .number expected), ("given", .number given)]
  | columnsUneven table shortest longest =>
    [("table", .text table), ("shortest", .number shortest), ("longest", .number longest)]
  | fastInsertFailed table error => [("table", .text table), ("error", .text error.message)]

end Event

end BoundSql
