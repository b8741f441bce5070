import BoundSql.Build
import BoundSql.Value.Basic

/-!
# Reconciling values with columns

A wrong number of values is no error: what does not fit is cropped or padded, and reported.
-/

namespace BoundSql

/-- The numbers of columns and of values that did not match. -/
structure Mismatch where
  expected : Nat
  given : Nat
deriving DecidableEq, Repr

namespace Reconcile

/-- Columns and values up to the length of the shorter list, and the mismatch if there was one. -/
def crop {α : Type} (table : String) (columns : List α) (values : List Value) :
    Build (List α × List Value × Option Mismatch) := do
  if columns.length = values.length then
    return (columns, values, none)
  else
    let keep := min columns.length values.length
    Build.report (.valuesCropped table columns.length values.length)
    return (columns.take keep, values.take keep, some ⟨columns.length, values.length⟩)

/-- The row with this length: nulls are added at the end, or values dropped there. -/
def fit (arity : Nat) (row : Row) : Row :=
  row.take arity ++ List.replicate (arity - row.length) .null

/-- The rows with this length, and how many had another. -/
def fitRows (table : String) (rows : List Row) (arity : Nat) : Build (List Row × Nat) := do
  let padded := rows.countP fun row => row.length < arity
  let truncated := rows.countP fun row => arity < row.length
  if 0 < padded + truncated then
    Build.report (.rowsAdjusted table arity padded truncated)
  return (rows.map (fit arity), padded + truncated)

/-- The length of the longest row. -/
def widest (rows : List Row) : Nat := rows.foldl (fun n row => max n row.length) 0

/-- The length of the shortest column. -/
def height (columns : List (String × List Value)) : Nat :=
  ((columns.map fun c => c.2.length).min?).getD 0

/-- The length of the longest column. -/
def tallest (columns : List (String × List Value)) : Nat :=
  ((columns.map fun c => c.2.length).max?).getD 0

/-- The names of columns, and their values as rows, up to the length of the shortest column. -/
def zipColumns (table : String) (columns : List (String × List Value)) :
    Build (List String × List Row) := do
  let n := height columns
  if n ≠ tallest columns then
    Build.report (.columnsUneven table n (tallest columns))
  return (columns.map Prod.fst,
    (List.range n).map fun i => columns.map fun c => c.2.getD i .null)

end Reconcile

end BoundSql
