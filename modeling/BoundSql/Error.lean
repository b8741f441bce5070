/-!
# Errors

What can go wrong when a statement is built or run.  Every failure is an `Error` that names its
cause; `Error.message` is the one place where causes become words.  A failure of the engine is
passed through untouched, and `Error.category` says coarsely what kind it is.  The failures that a
fast insert recovers from are those with `Error.isArityFailure`.
-/

namespace BoundSql

/-! ### Failures of the engine -/

/-- A failure that the engine reports. -/
inductive EngineFailure where
  /-- A result code of the database with its text. -/
  | sqlite (code : Int) (text : String)
  | parameterCount (got needed : Nat)
  | parameterName (name : String)
  | executeReturnedResults
  | columnIndex (index : Nat)
  | columnName (name : String)
  | columnType (index : Nat) (name : String)
  | noRows
  | invalidQuery
  | multipleStatements
  | changedRows (count : Nat)
deriving DecidableEq, Repr

/-- A coarse classification of failures of the engine. -/
inductive ErrorCategory where
  /-- Syntax errors, missing tables, wrong numbers of columns. -/
  | operational
  /-- Violated constraints. -/
  | constraint
  /-- The database is busy or locked. -/
  | busy
  /-- Files that cannot be read, written or opened. -/
  | io
  /-- Misuse of the interface: bad parameters, mismatched types. -/
  | misuse
  | unknown
deriving DecidableEq, Repr

namespace ErrorCategory

/-- The name of the category. -/
def name : ErrorCategory → String
  | .operational => "Operational Error"
  | .constraint => "Constraint Error"
  | .busy => "Busy Error"
  | .io => "I/O Error"
  | .misuse => "Misuse Error"
  | .unknown => "Error"

/-- The category of a primary result code.  The codes without a name of their own are generic
errors, as is a changed schema. -/
def ofPrimaryCode (code : Nat) : ErrorCategory :=
  match code with
  | 19 => .constraint
  | 5 | 6 => .busy
  | 3 | 8 | 10 | 11 | 13 | 14 | 15 | 22 | 26 => .io
  | 18 | 20 | 21 | 25 => .misuse
  | 2 | 4 | 7 | 9 | 12 | 23 => .unknown
  | _ => .operational

end ErrorCategory

namespace EngineFailure

/-- The words for a failure of the engine. -/
def message : EngineFailure → String
  | sqlite _ text => text
  | parameterCount got needed =>
    "Wrong number of parameters passed to query. Got " ++ toString got ++ ", needed " ++
      toString needed
  | parameterName name => "Invalid parameter name: " ++ name
  | executeReturnedResults => "Execute returned results - did you mean to call query?"
  | columnIndex index => "Invalid column index: " ++ toString index
  | columnName name => "Invalid column name: " ++ name
  | columnType index name =>
    "Invalid column type Text at index: " ++ toString index ++ ", name: " ++ name
  | noRows => "Query returned no rows"
  | invalidQuery => "Query is not read-only"
  | multipleStatements => "Multiple statements provided"
  | changedRows count => "Query changed " ++ toString count ++ " rows"

/-- The category of a failure.  Only the low byte of a result code, its primary code, counts. -/
def category : EngineFailure → ErrorCategory
  | sqlite code _ => .ofPrimaryCode (code % 256).toNat
  | parameterCount _ _ | parameterName _ | executeReturnedResults | columnIndex _ | columnName _ =>
    .misuse
  | columnType _ _ | noRows | invalidQuery | multipleStatements | changedRows _ => .unknown

end EngineFailure

/-! ### Failures of a call -/

/-- Why arguments cannot be brought into one shape. -/
inductive ShapeFault where
  /-- Positional and keyword data in one call. -/
  | mixed
  /-- A container among several positional arguments; positions count from one. -/
  | containerAmong (position : Nat) (kind : String)
  /-- An alternating list of columns and values ends with a column. -/
  | oddLength (length : Nat)
  /-- A value of this kind stands where a column name is due. -/
  | notColumn (kind : String)
  /-- A mapping without entries. -/
  | emptyMapping
  /-- Any other reason, in words. -/
  | other (text : String)
deriving DecidableEq, Repr

/-- The words for a fault of shape. -/
def ShapeFault.message : ShapeFault → String
  | mixed => "positional and keyword data cannot be mixed"
  | containerAmong position kind =>
    "positional argument " ++ toString position ++ " is a " ++ kind ++
      "; only scalars may follow one another"
  | oddLength length => "alternating column/value list has odd length " ++ toString length
  | notColumn kind => "expected a column name, got " ++ kind
  | emptyMapping => "empty mapping"
  | other text => text

/-- What a clause received that it does not accept. -/
inductive ClauseFault where
  | replaceWithOption
  | emptyColumnList
  | onAndUsing
  /-- Text with another number of placeholders than of values. -/
  | misaligned (placeholders values : Nat)
  | emptyPredicate
  | noValues (column : String)
  | positionZero
  /-- A document of this kind. -/
  | document (kind : String)
  /-- A document, by its text, that is no row. -/
  | element (text : String)
  /-- A document, by its text, that is no list of rows. -/
  | payload (text : String)
  /-- Anything else, in words. -/
  | other (text : String)
deriving DecidableEq, Repr

/-- The words for what a clause does not accept. -/
def ClauseFault.message : ClauseFault → String
  | replaceWithOption => "REPLACE with OR option"
  | emptyColumnList => "empty column list"
  | onAndUsing => "both ON and USING"
  | misaligned placeholders values =>
    toString placeholders ++ " placeholders, " ++ toString values ++ " values"
  | emptyPredicate => "empty predicate text"
  | noValues column => "no values for column " ++ column
  | positionZero => "position 0"
  | document kind => kind
  | element text => "element " ++ text
  | payload text => "payload " ++ text
  | other text => text

/-- A failure to build or to run a statement. -/
inductive Error where
  /-- The operation was given no data. -/
  | noData (operation : String)
  /-- The arguments of the operation cannot be brought into one shape. -/
  | shape (operation : String) (fault : ShapeFault)
  /-- The clause does not accept what it was given. -/
  | clause (name : String) (fault : ClauseFault)
  /-- An empty list of tokens has no text. -/
  | emptySequence
  /-- The table is absent or has no columns. -/
  | noSuchTable (table : String)
  /-- A failure that the engine reported. -/
  | engine (failure : EngineFailure)
deriving DecidableEq, Repr

namespace Error

/-- The words for an error. -/
def message : Error → String
  | noData operation => operation ++ ": no data supplied"
  | shape operation fault => operation ++ ": " ++ fault.message
  | clause name fault => name ++ ": unsupported " ++ fault.message
  | emptySequence => "cannot render an empty sequence as schema text"
  | noSuchTable table => "table " ++ table ++ " has no columns or does not exist"
  | engine failure => failure.message

/-- The category of a failure of the engine; errors of this library have none. -/
def category : Error → Option ErrorCategory
  | engine failure => some failure.category
  | _ => none

/-- The failure may come from a wrong number of values: a generic error of the engine, or a wrong
number of parameters. -/
def isArityFailure : Error → Bool
  | engine (.parameterCount _ _) => true
  | engine failure => failure.category == .operational
  | _ => false

end Error

end BoundSql
