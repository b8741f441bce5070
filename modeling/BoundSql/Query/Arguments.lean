import BoundSql.Error
import BoundSql.Value.Json

/-!
# Arguments

The data of a call comes in several shapes: keyword bindings, one mapping, one sequence, or several
scalars.  `Arguments.resolve` brings it into one of two: named bindings or a list of values.  A
single container is always opened: it holds the data, it is not the data.  `Bindings.ofPairs` reads
an alternating list of columns and values.
-/

namespace BoundSql

/-- Columns with the values bound to them, in order; a column may occur more than once. -/
abbrev Bindings := List (String × Value)

namespace Bindings

/-- The columns in order. -/
def columns (b : Bindings) : List String := b.map Prod.fst

/-- The values in order. -/
def values (b : Bindings) : List Value := b.map Prod.snd

/-- The bindings as an alternating list of columns and values. -/
def flatten (b : Bindings) : List Value := b.flatMap fun (c, v) => [.text c, v]

/-- The bindings that a list of columns and values in turn writes, if it has even length. -/
def pairUp (operation : String) : List Value → Except Error Bindings
  | .text column :: v :: rest => do
    let b ← pairUp operation rest
    return (column, v) :: b
  | other :: _ :: _ => .error (.shape operation (.notColumn other.kind))
  | _ => .ok []

/-- The bindings that a list of columns and values in turn writes. -/
def ofPairs (operation : String) (values : List Value) : Except Error Bindings :=
  if values.length % 2 = 1 then .error (.shape operation (.oddLength values.length))
  else pairUp operation values

end Bindings

/-- A positional argument. -/
inductive Argument where
  | scalar (v : Value)
  | sequence (values : List Value)
  | mapping (bindings : Bindings)
deriving DecidableEq, Repr

namespace Argument

/-- The name of the argument's kind. -/
def kind : Argument → String
  | scalar _ => "scalar"
  | sequence _ => "sequence"
  | mapping _ => "mapping"

/-- An object is a mapping, an array a sequence, and anything else a scalar. -/
def ofJson : Json → Argument
  | .object members => .mapping (members.map fun (name, j) => (name, .ofJson j))
  | .array items => .sequence (items.map .ofJson)
  | j => .scalar (.ofJson j)

end Argument

/-- The data of a call: positional arguments and keyword bindings. -/
structure Arguments where
  positional : List Argument := []
  keywords : Bindings := []
deriving DecidableEq, Repr

/-- The data of a call in one shape. -/
inductive Resolved where
  /-- Values with the columns they are bound to. -/
  | bindings (b : Bindings)
  /-- Values without column names. -/
  | positional (values : List Value)
deriving DecidableEq, Repr

namespace Arguments

/-- A document as a single positional argument. -/
def ofJson (j : Json) : Arguments := ⟨[.ofJson j], []⟩

/-- The values of arguments that are all scalars; `position` is that of the first argument. -/
def scalars (operation : String) (position : Nat) : List Argument → Except Error (List Value)
  | [] => .ok []
  | .scalar v :: rest => do
    let vs ← scalars operation (position + 1) rest
    return v :: vs
  | a :: _ => .error (.shape operation (.containerAmong position a.kind))

/-- Brings the data of a call into one shape. -/
def resolve (operation : String) (args : Arguments) : Except Error Resolved :=
  match args.positional, args.keywords with
  | [], [] => .error (.noData operation)
  | _ :: _, _ :: _ => .error (.shape operation .mixed)
  | [], keywords => .ok (.bindings keywords)
  | [.mapping []], [] => .error (.noData operation)
  | [.mapping b], [] => .ok (.bindings b)
  | [.sequence []], [] => .error (.noData operation)
  | [.sequence values], [] => .ok (.positional values)
  | positional, [] => do
    let values ← scalars operation 1 positional
    return .positional values

/-- The bindings of a call, where a list of values stands for columns and values in turn. -/
def toBindings (operation : String) (args : Arguments) : Except Error Bindings := do
  match ← resolve operation args with
  | .bindings b => return b
  | .positional values => Bindings.ofPairs operation values

end Arguments

end BoundSql
