import BoundSql.Query.Arguments
import BoundSql.Query.Expr

/-!
# Filters

A `Where` is what selects the rows of a statement: a mapping of columns to predicates, an
expression, or literal text.  A mapping holds if all its entries hold, and an entry holds if its
column compares with one of its values.  `Where.expr` is the filter as an expression, and
`Where.clause` the clause with a leading space.
-/

namespace BoundSql

/-- What a mapping asks of one column. -/
inductive Predicate where
  /-- The column has this value. -/
  | eq (v : Value)
  /-- The column has one of these values. -/
  | any (values : List Value)
  /-- The column compares with one of these values. -/
  | op (o : Operator) (values : List Value)
deriving DecidableEq, Repr

namespace Predicate

/-- The predicate of a list: a leading operator applies to the values after it, any other list asks
for one of its values. -/
def ofValues (values : List Value) : Predicate :=
  match values with
  | .text s :: rest =>
    match Operator.parse? s with
    | some o => .op o rest
    | none => if rest.isEmpty then .eq (.text s) else .any values
  | [v] => .eq v
  | _ => .any values

/-- The operator of a predicate. -/
def operator : Predicate → Operator
  | eq _ => .eq
  | any _ => .eq
  | op o _ => o

/-- The values of a predicate. -/
def values : Predicate → List Value
  | eq v => [v]
  | any vs => vs
  | op _ vs => vs

end Predicate

/-- What selects the rows of a statement. -/
inductive Where where
  /-- Every column satisfies its predicate. -/
  | mapping (entries : List (String × Predicate))
  /-- The condition holds. -/
  | condition (e : Expr)
  /-- The text of the caller holds. -/
  | raw (text : String)
deriving DecidableEq, Repr

namespace Where

/-! ### Reading loose data -/

/-- Every column has the value bound to it. -/
def ofBindings (b : Bindings) : Where := .mapping (b.map fun (column, v) => (column, .eq v))

/-- The filter of a call's data, where a list stands for columns and values in turn. -/
def ofArguments (args : Arguments) : Except Error Where := do
  let b ← args.toBindings "where"
  return ofBindings b

/-- The predicate of a document: an array is a list of values, anything else one value. -/
def predicateOfJson : Json → Predicate
  | .array items => .ofValues (items.map .ofJson)
  | j => .eq (.ofJson j)

/-- The filter of a document: a string is literal text, an object maps columns to predicates. -/
def ofJson : Json → Except Error Where
  | .string text => .ok (.raw text)
  | .object [] => .error (.shape "where" .emptyMapping)
  | .object members => .ok (.mapping (members.map fun (column, j) => (column, predicateOfJson j)))
  | .null => .error (.clause "where" (.document "null"))
  | .boolean _ => .error (.clause "where" (.document "boolean"))
  | .number _ => .error (.clause "where" (.document "number"))
  | .array _ => .error (.clause "where" (.document "array"))

/-! ### The clause -/

/-- The column compares with one of the values of its predicate.  To equal a single value is the case
of one value: its disjunction is the comparison itself, so it needs no branch and has no fault. -/
def entry (e : String × Predicate) : Except Error Expr :=
  match Expr.any (e.2.values.map fun v => .compare e.2.operator (.column e.1) (.bound v)) with
  | some c => .ok c
  | none => .error (.clause "where" (.noValues e.1))

/-- The filter as an expression. -/
def expr : Where → Except Error Expr
  | condition e => .ok e
  | raw text =>
    if text.toList.all Text.isBlank then .error (.clause "where" .emptyPredicate)
    else .ok (.raw text [])
  | mapping entries => do
    let terms ← entries.mapM entry
    match Expr.all terms with
    | some e => .ok e
    | none => .error (.shape "where" .emptyMapping)

/-- The clause of a filter, nothing without one. -/
def clause : Option Where → Except Error Fragment
  | none => .ok .empty
  | some w => do
    let e ← w.expr
    let f ← e.render.checked "where"
    return .text " WHERE " ++ f.parenthesized

end Where

end BoundSql
