import BoundSql.Query.Fragment
import BoundSql.Text.Blank

/-!
# Expressions

An `Expr` is an expression with bound values: a condition of a clause, or a value that an update
computes.  `Expr.render` writes it with a placeholder for every bound value, and puts parentheses
around an operand only where it would bind less tightly than the operator around it.  Text of the
caller is always put in parentheses when it is an operand.
-/

namespace BoundSql

/-- An operator that compares. -/
inductive Operator where
  | lt
  | le
  | eq
  | eqEq
  | ne
  | ltGt
  | gt
  | ge
deriving DecidableEq, Repr

namespace Operator

/-- The text of an operator. -/
def sql : Operator → String
  | lt => "<"
  | le => "<="
  | eq => "="
  | eqEq => "=="
  | ne => "!="
  | ltGt => "<>"
  | gt => ">"
  | ge => ">="

/-- All operators. -/
def all : List Operator := [lt, le, eq, eqEq, ne, ltGt, gt, ge]

/-- The operator with this text, with or without white space around it. -/
def parse? (s : String) : Option Operator :=
  all.find? fun o => o.sql == Text.trimString s

end Operator

/-- An operator that computes. -/
inductive Arithmetic where
  | add
  | sub
  | mul
  | div
deriving DecidableEq, Repr

/-- The text of an operator that computes. -/
def Arithmetic.sql : Arithmetic → String
  | add => "+"
  | sub => "-"
  | mul => "*"
  | div => "/"

/-- An expression with bound values. -/
inductive Expr where
  | column (name : String)
  | bound (v : Value)
  /-- Text of the caller with its values. -/
  | raw (text : String) (values : List Value)
  | arithmetic (op : Arithmetic) (left right : Expr)
  | compare (op : Operator) (left right : Expr)
  | like (column : String) (pattern : Value)
  | isNull (column : String)
  | isNotNull (column : String)
  | isIn (column : String) (values : List Value)
  | between (column : String) (low high : Value)
  | not (e : Expr)
  | and (left right : Expr)
  | or (left right : Expr)
deriving DecidableEq, Repr

namespace Expr

/-- How tightly the text of an expression holds together. -/
inductive Shape where
  /-- A name or a placeholder. -/
  | atom
  | arithmetic
  | comparison
  | not
  | and
  | or
  /-- Text of the caller, of which nothing is known. -/
  | raw
deriving DecidableEq, Repr

/-- The shape of an expression's text. -/
def shape : Expr → Shape
  | column _ | bound _ => .atom
  | raw _ _ => .raw
  | arithmetic _ _ _ => .arithmetic
  | compare _ _ _ | like _ _ | isNull _ | isNotNull _ | isIn _ _ | between _ _ _ => .comparison
  | not _ => .not
  | and _ _ => .and
  | or _ _ => .or

namespace Shape

/-- An operand of arithmetic that needs parentheses. -/
def breaksArithmetic : Shape → Bool
  | atom => false
  | _ => true

/-- An operand of a comparison that needs parentheses. -/
def breaksComparison : Shape → Bool
  | atom | arithmetic => false
  | _ => true

/-- An operand of `AND` that needs parentheses. -/
def breaksAnd : Shape → Bool
  | or | raw => true
  | _ => false

/-- An operand of `OR` that needs parentheses. -/
def breaksOr : Shape → Bool
  | raw => true
  | _ => false

end Shape

/-- A text in parentheses where they are needed. -/
def grouped (needed : Bool) (f : Fragment) : Fragment :=
  if needed then f.parenthesized else f

/-- Two operands around an operator. -/
def binary (op : String) (left right : Fragment) : Fragment :=
  left ++ Fragment.text (" " ++ op ++ " ") ++ right

/-- The text of an expression with the values of its placeholders. -/
def render : Expr → Fragment
  | column name => .text name
  | bound v => .placeholder v
  | raw text values => ⟨text, values⟩
  | arithmetic op left right =>
    binary op.sql (grouped left.shape.breaksArithmetic left.render)
      (grouped right.shape.breaksArithmetic right.render)
  | compare op left right =>
    binary op.sql (grouped left.shape.breaksComparison left.render)
      (grouped right.shape.breaksComparison right.render)
  | like name pattern => .text (name ++ " LIKE ") ++ .placeholder pattern
  | isNull name => .text (name ++ " IS NULL")
  | isNotNull name => .text (name ++ " IS NOT NULL")
  | isIn name values =>
    .text (name ++ " IN (") ++ .joined ", " (values.map .placeholder) ++ .text ")"
  | between name low high =>
    .text (name ++ " BETWEEN ") ++ .placeholder low ++ .text " AND " ++ .placeholder high
  | not e => .text "NOT " ++ e.render.parenthesized
  | and left right =>
    binary "AND" (grouped left.shape.breaksAnd left.render)
      (grouped right.shape.breaksAnd right.render)
  | or left right =>
    binary "OR" (grouped left.shape.breaksOr left.render)
      (grouped right.shape.breaksOr right.render)

/-- All of the conditions, or nothing if there are none. -/
def all : List Expr → Option Expr
  | [] => none
  | e :: es => some (es.foldl .and e)

/-- One of the conditions, or nothing if there are none. -/
def any : List Expr → Option Expr
  | [] => none
  | e :: es => some (es.foldl .or e)

end Expr

end BoundSql
