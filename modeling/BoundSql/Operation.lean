import BoundSql.Assertion
import BoundSql.Database

/-!
# Operations

An `Operation` is something that a database is asked to do, as a value: `Database.perform` does it
without assertions, `Database.call` with them.  A statement is asserted to be aligned when it has
been built, before it is run or given back; a batch only when it is run.  Of a statement or a script
that is passed on as it is, by `Database.execute` or `Database.executeScript`, nothing is asserted.
-/

namespace BoundSql

/-- Something that a database is asked to do. -/
inductive Operation where
  | createTable (name : String) (t : TableDef) (options : CreateOptions)
  | dropTable (q : DropTable)
  | insert (table : String) (args : Arguments) (options : InsertOptions)
  | insertMany (table : String) (input : BulkInput) (options : InsertOptions)
  | select (q : Select)
  | update (q : Update)
  | delete (q : Delete)

namespace Operation

/-- The operation, to be carried out or only built. -/
def withExecute (execute : Bool) : Operation → Operation
  | createTable name t options => .createTable name t { options with execute }
  | dropTable q => .dropTable { q with execute }
  | insert table args options => .insert table args { options with execute }
  | insertMany table input options => .insertMany table input { options with execute }
  | select q => .select { q with execute }
  | update q => .update { q with execute }
  | delete q => .delete { q with execute }

/-- The operation is to be carried out. -/
def execute : Operation → Bool
  | createTable _ _ options => options.execute
  | dropTable q => q.execute
  | insert _ _ options => options.execute
  | insertMany _ _ options => options.execute
  | select q => q.execute
  | update q => q.execute
  | delete q => q.execute

end Operation

namespace Database

variable {σ : Type} (db : Database σ)

/-- Does what it is asked to do. -/
def perform : Operation → Session σ Output
  | .createTable name t options => db.createTable name t options
  | .dropTable q => db.drop q
  | .insert table args options => db.insert table args options
  | .insertMany table input options => db.insertMany table input options
  | .select q => db.select q
  | .update q => db.update q
  | .delete q => db.delete q

/-- Runs what was built. -/
def carryOut : Output → Session σ Output
  | .rows rows => pure (.rows rows)
  | .statement s => do
    let rows ← db.execute s
    return .rows rows
  | .batch b => do
    let rows ← db.executeMany b
    return .rows rows

/-! ### With assertions -/

/-- Runs what was built, or gives it back.  A statement is asserted to be aligned in either case, as
its builder does, a batch only if it is run. -/
def conclude (a : Assertions) (execute : Bool) : Output → OptionT (Session σ) Output
  | .rows rows => pure (.rows rows)
  | .statement s => do
    a.assert s.isAligned
    OptionT.lift (db.finish s execute)
  | .batch b =>
    if execute then do
      a.assert b.isAligned
      OptionT.lift (db.carryOut (.batch b))
    else pure (.batch b)

/-- Builds a statement or a batch and concludes with it. -/
def conduct (a : Assertions) (op : Operation) : OptionT (Session σ) Output := do
  let out ← OptionT.lift (db.perform (op.withExecute false))
  db.conclude a op.execute out

/-- Inserts values for the columns of the table, with assertions. -/
def callIntoColumns (a : Assertions) (table : String) (values : List Value)
    (options : InsertOptions) : OptionT (Session σ) Output := do
  let out ← OptionT.lift (db.insertIntoColumns table values { options with execute := false })
  db.conclude a options.execute out

/-- Inserts values without column names, or for the columns of the table if that fails as in
`Database.insertFast`, with assertions. -/
def callFast (a : Assertions) (table : String) (values : List Value) (options : InsertOptions) :
    OptionT (Session σ) Output := do
  let s ← OptionT.lift (Session.ofExcept (Insert.fast table values options))
  a.assert s.isAligned
  match ← OptionT.lift (Session.attempt (db.execute s)) with
  | .ok rows => return .rows rows
  | .error e =>
    if e.isArityFailure then do
      OptionT.lift (Session.report (.fastInsertFailed table e))
      db.callIntoColumns a table values options
    else OptionT.lift (Session.fail e)

/-- Does what it is asked to do, with assertions. -/
def call (a : Assertions) (op : Operation) : OptionT (Session σ) Output :=
  match op with
  | .insert table args options =>
    match args.resolve "insert" with
    | .ok (.positional values) =>
      if options.execute && db.config.fastPath then db.callFast a table values options
      else db.conduct a op
    | _ => db.conduct a op
  | _ => db.conduct a op

/-- All rows of a table, with assertions. -/
def callSelectAll (a : Assertions) (table : String) : OptionT (Session σ) (List Row) := do
  let q : Select := { table, columns := some .all }
  let s ← OptionT.lift (Session.ofBuild q.statement)
  a.assert s.isAligned
  OptionT.lift (db.execute s)

/-- Does one thing after the other, up to the first failure. -/
def callAll (a : Assertions) (ops : List Operation) : OptionT (Session σ) (List Output) :=
  ops.mapM (db.call a)

end Database

end BoundSql
