import BoundSql.Query.Arguments
import BoundSql.Query.Reconcile
import BoundSql.Query.With
import BoundSql.Text.Blank
import BoundSql.Text.Capital

/-!
# Inserts

Statements that write rows.  One row is given by values alone (`Insert.fast`), by values for the
columns of a table (`Insert.intoColumns`) or by bindings (`Insert.ofBindings`); many rows by lists
of values (`Insert.manyRows`) or by columns of values (`Insert.manyColumns`).

That the statement for one row is asserted to be aligned is left to `Build.asserted`; a batch is
only asserted to be aligned when it is run, which is left to `Database.conclude`.
-/

namespace BoundSql

/-- What is done about a row that violates a constraint. -/
inductive OnConflict where
  | abort
  | fail
  | ignore
  | replace
  | rollback
deriving DecidableEq, Repr

namespace OnConflict

/-- The keyword. -/
def sql : OnConflict → String
  | abort => "ABORT"
  | fail => "FAIL"
  | ignore => "IGNORE"
  | replace => "REPLACE"
  | rollback => "ROLLBACK"

/-- All ways to treat a conflict. -/
def all : List OnConflict := [abort, fail, ignore, replace, rollback]

/-- The one with this keyword in any letter case, with or without white space around it. -/
def parse? (s : String) : Option OnConflict :=
  all.find? fun o => o.sql == Text.upperString (Text.trimString s)

end OnConflict

/-- The keyword that a statement that writes rows begins with. -/
inductive InsertVerb where
  | insert
  | replace
deriving DecidableEq, Repr

/-- The keyword. -/
def InsertVerb.sql : InsertVerb → String
  | insert => "INSERT"
  | replace => "REPLACE"

/-- What single and bulk inserts have in common. -/
structure InsertOptions where
  verb : InsertVerb := .insert
  onConflict : Option OnConflict := none
  tables : List CommonTable := []
  /-- The statement is run, not only built. -/
  execute : Bool := true
deriving DecidableEq, Repr

namespace Insert

/-- The text of an insert with so many placeholders, its values not included. -/
def head (table : String) (verb : InsertVerb) (onConflict : Option OnConflict)
    (columns : Option (List String)) (arity : Nat) : Except Error String :=
  if arity = 0 then .error (.noData "insert")
  else if verb = .replace ∧ onConflict.isSome then .error (.clause "insert" .replaceWithOption)
  else
    let option := match onConflict with
      | some o => " OR " ++ o.sql
      | none => ""
    let names := match columns with
      | some cs => " (" ++ ", ".intercalate cs ++ ")"
      | none => ""
    .ok (verb.sql ++ option ++ " INTO " ++ table ++ names ++
      " VALUES (" ++ Placeholder.list arity ++ ")")

/-- The statement that inserts one row. -/
def row (table : String) (columns : Option (List String)) (arity : Nat) (values : List Value)
    (options : InsertOptions) : Except Error Statement := do
  let script ← head table options.verb options.onConflict columns arity
  CommonTable.before options.tables ⟨script, values⟩

/-- One row without column names, a placeholder for each value. -/
def fast (table : String) (values : List Value) (options : InsertOptions) : Except Error Statement :=
  row table none values.length values options

/-- One row for the columns of a table, in order. -/
def intoColumns (table : String) (columns : List String) (values : List Value)
    (options : InsertOptions) : Build Statement := do
  let (columns, values, _) ← Reconcile.crop table columns values
  Build.ofExcept (row table (some columns) columns.length values options)

/-- One row of bindings. -/
def ofBindings (table : String) (b : Bindings) (options : InsertOptions) : Except Error Statement :=
  row table (some b.columns) b.columns.length b.values options

/-- Rows for the leading columns of a table, as many as the longest row has values. -/
def manyRows (table : String) (columns : List String) (rows : List Row) (options : InsertOptions) :
    Build Batch := do
  let width := Reconcile.widest rows
  if width = 0 then Build.fail (.noData "insert_many")
  else
    let targets := columns.take width
    let script ← Build.ofExcept
      (head table options.verb options.onConflict (some targets) targets.length)
    let (rows, changed) ← Reconcile.fitRows table rows targets.length
    if changed = 0 ∧ targets.length < columns.length then
      Build.report (.rowsNarrow table columns.length targets.length)
    Build.ofExcept (CommonTable.beforeBatch options.tables ⟨script, rows⟩)

/-- Rows given by columns of values. -/
def manyColumns (table : String) (columns : List (String × List Value)) (options : InsertOptions) :
    Build Batch := do
  let (names, rows) ← Reconcile.zipColumns table columns
  if names.isEmpty ∨ rows.isEmpty then Build.fail (.noData "insert_many")
  else
    let script ← Build.ofExcept
      (head table options.verb options.onConflict (some names) names.length)
    Build.ofExcept (CommonTable.beforeBatch options.tables ⟨script, rows⟩)

end Insert

/-- The data of a bulk insert. -/
inductive BulkInput where
  | rows (rows : List Row)
  /-- Values by column. -/
  | columns (columns : List (String × List Value))
deriving DecidableEq, Repr

namespace BulkInput

/-- The values of an array. -/
def valuesOfJson : Json → Except Error Row
  | .array items => .ok (items.map .ofJson)
  | j => .error (.clause "insert_many" (.element j.text))

/-- An array of arrays gives rows, an object of arrays columns. -/
def ofJson : Json → Except Error BulkInput
  | .array items => do
    let rows ← items.mapM valuesOfJson
    return .rows rows
  | .object members => do
    let columns ← members.mapM fun (name, j) => do
      let values ← valuesOfJson j
      return (name, values)
    return .columns columns
  | j => .error (.clause "insert_many" (.payload j.text))

end BulkInput

end BoundSql
