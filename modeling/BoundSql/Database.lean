import BoundSql.Config.Basic
import BoundSql.Query.Create
import BoundSql.Query.Insert
import BoundSql.Query.Select
import BoundSql.Query.Update
import BoundSql.Session

/-!
# Databases

The operations of a database: each builds a statement and either runs it or, if it is only to be
built, gives it back.  A single insert of values without column names is first tried without looking
up the columns of the table (`Database.insertFast`); if that fails for what may be a wrong number of
values, it is made again for the columns of the table (`Database.insertIntoColumns`).

No assertion is checked here: what is asserted of statements when they have been built, and of
batches before they are run, is added in `Database.call`.
-/

namespace BoundSql

/-- What an operation yields: the rows of what was run, or what would have been run. -/
inductive Output where
  | rows (rows : List Row)
  | statement (s : Statement)
  | batch (b : Batch)
deriving DecidableEq, Repr

/-- An engine with the settings of its use. -/
structure Database (σ : Type) where
  engine : Engine σ
  config : Config := {}

namespace Database

variable {σ : Type}

/-! ### Requests -/

/-- Runs a statement. -/
def execute (db : Database σ) (s : Statement) : Session σ (List Row) :=
  Session.ask (.execute s) (db.engine.execute s)

/-- Runs a batch. -/
def executeMany (db : Database σ) (b : Batch) : Session σ (List Row) :=
  Session.ask (.executeMany b) (db.engine.executeMany b)

/-- Runs several statements without values. -/
def executeScript (db : Database σ) (script : String) : Session σ (List Row) :=
  Session.ask (.executeScript script) (db.engine.executeScript script)

/-- The columns of a table, none if there is no such table. -/
def describeTable (db : Database σ) (table : String) : Session σ (List ColumnDescriptor) :=
  Session.ask (.describeTable table) (db.engine.describeTable table)

/-- The names of all tables. -/
def listTables (db : Database σ) : Session σ (List String) :=
  Session.ask .listTables db.engine.listTables

/-- The names of the columns of a table, of which there must be one. -/
def listColumns (db : Database σ) (table : String) : Session σ (List String) := do
  let columns ← db.describeTable table
  if columns.isEmpty then Session.fail (.noSuchTable table)
  else return columns.map ColumnDescriptor.name

/-! ### Statements -/

/-- Runs a statement, or gives it back. -/
def finish (db : Database σ) (s : Statement) (execute : Bool) : Session σ Output :=
  if execute then do
    let rows ← db.execute s
    return .rows rows
  else pure (.statement s)

/-- Creates a table. -/
def createTable (db : Database σ) (name : String) (t : TableDef) (options : CreateOptions) :
    Session σ Output := do
  let s ← Session.ofExcept (t.create name options)
  db.finish s options.execute

/-- Creates the tables of a template in their order, up to the first failure. -/
def createTables (db : Database σ) (template : Template) (options : CreateOptions) :
    Session σ (List Output) :=
  template.tables.mapM fun (name, t) => db.createTable name t options

/-- Drops a table. -/
def drop (db : Database σ) (q : DropTable) : Session σ Output :=
  db.finish q.statement q.execute

/-- Runs a query. -/
def select (db : Database σ) (q : Select) : Session σ Output := do
  let s ← Session.ofBuild q.statement
  db.finish s q.execute

/-- Runs a query for distinct rows. -/
def selectDistinct (db : Database σ) (q : Select) : Session σ Output :=
  db.select { q with method := .distinct }

/-- All rows of a table. -/
def selectAll (db : Database σ) (table : String) : Session σ (List Row) := do
  let s ← Session.ofBuild (Select.statement { table, columns := some .all })
  db.execute s

/-- Updates rows. -/
def update (db : Database σ) (q : Update) : Session σ Output := do
  let s ← Session.ofExcept q.statement
  db.finish s q.execute

/-- Deletes rows. -/
def delete (db : Database σ) (q : Delete) : Session σ Output := do
  let s ← Session.ofExcept q.statement
  db.finish s q.execute

/-! ### Inserts -/

/-- Inserts values for the columns of a table. -/
def insertIntoColumns (db : Database σ) (table : String) (values : List Value)
    (options : InsertOptions) : Session σ Output := do
  let columns ← db.listColumns table
  let s ← Session.ofBuild (Insert.intoColumns table columns values options)
  db.finish s options.execute

/-- Inserts values without column names; if that fails for what may be a wrong number of values,
inserts them for the columns of the table. -/
def insertFast (db : Database σ) (table : String) (values : List Value) (options : InsertOptions) :
    Session σ Output := do
  let s ← Session.ofExcept (Insert.fast table values options)
  match ← Session.attempt (db.execute s) with
  | .ok rows => return .rows rows
  | .error e =>
    if e.isArityFailure then do
      Session.report (.fastInsertFailed table e)
      db.insertIntoColumns table values options
    else Session.fail e

/-- Inserts one row. -/
def insert (db : Database σ) (table : String) (args : Arguments) (options : InsertOptions) :
    Session σ Output := do
  match ← Session.ofExcept (args.resolve "insert") with
  | .bindings b => do
    let s ← Session.ofExcept (Insert.ofBindings table b options)
    db.finish s options.execute
  | .positional values =>
    if options.execute && db.config.fastPath then db.insertFast table values options
    else db.insertIntoColumns table values options

/-- Inserts one row in place of those it conflicts with. -/
def replace (db : Database σ) (table : String) (args : Arguments) (options : InsertOptions) :
    Session σ Output :=
  db.insert table args { options with verb := .replace }

/-- The batch of a bulk insert; rows are brought to the columns of the table. -/
def bulkBatch (db : Database σ) (table : String) (input : BulkInput) (options : InsertOptions) :
    Session σ Batch :=
  match input with
  | .rows rows => do
    let columns ← db.listColumns table
    Session.ofBuild (Insert.manyRows table columns rows options)
  | .columns columns => Session.ofBuild (Insert.manyColumns table columns options)

/-- Inserts many rows with one text. -/
def insertMany (db : Database σ) (table : String) (input : BulkInput) (options : InsertOptions) :
    Session σ Output := do
  let b ← db.bulkBatch table input options
  if options.execute then do
    let rows ← db.executeMany b
    return .rows rows
  else return .batch b

end Database

end BoundSql
