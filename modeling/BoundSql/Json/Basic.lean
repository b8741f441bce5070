import BoundSql.Decimal.Binary64

/-!
# JSON documents

A `Json` keeps the members of an object as they stand in the text, repeated names included.
`Json.canonical` is the view of a document as plain data: the members of every object sorted by
name, and of several members with one name the last.
-/

namespace BoundSql

/-- A number of a document.  Whole literals that fit 64 bits (signed or unsigned) are integers, all
other literals are floating point. -/
inductive Json.Number where
  | integer (i : Int)
  | real (x : Binary64)
deriving DecidableEq, Repr

/-- A JSON document. -/
inductive Json where
  | null
  | boolean (b : Bool)
  | number (n : Json.Number)
  | string (s : String)
  | array (items : List Json)
  | object (members : List (String × Json))
deriving Repr

namespace Json

/-- The number as a signed 64-bit integer, if it is one. -/
def Number.int64? : Number → Option Int64
  | .integer i =>
    if Int64.minValue.toInt ≤ i ∧ i ≤ Int64.maxValue.toInt then some (Int64.ofInt i) else none
  | .real _ => none

/-- The number as floating point. -/
def Number.toReal : Number → Binary64
  | .integer i => Binary64.ofInt i
  | .real x => x

/-- The members sorted by name, a new member taking the place of one with its name. -/
def put (name : String) (j : Json) : List (String × Json) → List (String × Json)
  | [] => [(name, j)]
  | (name', j') :: rest =>
    if name = name' then (name, j) :: rest
    else if name < name' then (name, j) :: (name', j') :: rest
    else (name', j') :: put name j rest

mutual

/-- The document with the members of every object sorted by name, the last one of a name kept. -/
def canonical : Json → Json
  | .null => .null
  | .boolean b => .boolean b
  | .number n => .number n
  | .string s => .string s
  | .array items => .array (canonicalItems items)
  | .object members => .object ((canonicalMembers members).foldl (fun ms m => put m.1 m.2 ms) [])

/-- The canonical form of each item. -/
def canonicalItems : List Json → List Json
  | [] => []
  | j :: rest => canonical j :: canonicalItems rest

/-- The canonical form of each member's value. -/
def canonicalMembers : List (String × Json) → List (String × Json)
  | [] => []
  | (name, j) :: rest => (name, canonical j) :: canonicalMembers rest

end

end Json

end BoundSql
