import BoundSql.Toml.Basic
import BoundSql.Toml.Lexical

/-!
# Tables under construction

The lines of a document build its tables piece by piece, in any order, but no table twice.  So a
`Node` remembers how a table came about: by its own header, only implied by the header of a table
inside it, or by keys with dots.  Keys with dots go through tables that have no header yet and end
in one that such keys made; a header may name a table that was only implied so far.  Members stand in
the order in which they came about, and an implied table counts from its own header if it has one.
-/

namespace BoundSql

namespace Toml

/-- How a table came about. -/
inductive Origin where
  /-- By its own header, or in braces. -/
  | header
  /-- By the header of a table inside it. -/
  | implied
  /-- By a key with dots. -/
  | dotted
deriving DecidableEq, Repr

/-- A member of a document that is still being read. -/
inductive Node where
  /-- A value, complete as it stands. -/
  | leaf (v : Toml)
  | table (origin : Origin) (members : List (String × Node))
  /-- Tables under one header in double brackets; the last one is still open. -/
  | tables (closed : List (List (String × Node))) (last : List (String × Node))
deriving Repr

/-- The members of a table that is still being read. -/
abbrev Members := List (String × Node)

namespace Members

/-- Changes the member with this key, or adds it at the end. -/
def alter (k : String) (f : Option Node → Option Node) : Members → Option Members
  | [] => (f none).map fun n => [(k, n)]
  | (k', n) :: rest =>
    if k = k' then (f (some n)).map fun n' => (k, n') :: rest
    else (alter k f rest).map ((k', n) :: ·)

/-- Changes the table at the end of a path with `f`, which is given the table's origin.  Tables on
the path that do not exist are made; keys with dots do not go through tables with a header. -/
def descend (dotted : Bool) (f : Origin → Members → Option Members) :
    List String → Origin → Members → Option Members
  | [], origin, ms => f origin ms
  | k :: path, _, ms =>
    alter k
      (fun
        | none =>
          let origin := if dotted then .dotted else .implied
          (descend dotted f path origin []).map (.table origin)
        | some (.leaf _) => none
        | some (.tables closed last) => (descend dotted f path .header last).map (.tables closed)
        | some (.table origin ms') =>
          if dotted && origin == .header then none
          else (descend dotted f path origin ms').map (.table origin))
      ms

/-- Adds a value under a key, which must be new; a path must end in a table of keys with dots, and
without one the table must not be such. -/
def insert (k : Key) (v : Toml) (origin : Origin) (ms : Members) : Option Members :=
  descend true
    (fun origin ms =>
      if k.path.isEmpty = (origin == .dotted) then none
      else alter k.last (fun n => if n.isNone then some (.leaf v) else none) ms)
    k.path origin ms

/-- Opens the table of a header, which comes last among the members: a new one, or one that was only
implied, which moves there with what it holds. -/
def openTable (k : Key) (ms : Members) : Option Members :=
  descend false
    (fun _ ms =>
      match ms.lookup k.last with
      | none => some (ms ++ [(k.last, .table .header [])])
      | some (.table .implied ms') =>
        some (ms.filter (fun m => m.1 != k.last) ++ [(k.last, .table .header ms')])
      | _ => none)
    k.path .header ms

/-- Opens a further table of a header in double brackets. -/
def openElement (k : Key) (ms : Members) : Option Members :=
  descend false
    (fun _ => alter k.last fun
      | none => some (.tables [] [])
      | some (.tables closed last) => some (.tables (closed ++ [last]) [])
      | _ => none)
    k.path .header ms

/-- Adds a value under a key of the table at the end of a path. -/
def insertAt (path : List String) (k : Key) (v : Toml) (ms : Members) : Option Members :=
  descend false (insert k v) path .header ms

end Members

mutual

/-- The value that a finished member stands for. -/
def Node.toToml : Node → Toml
  | .leaf v => v
  | .table _ members => .table (finish members)
  | .tables closed last => .array (finishAll closed ++ [.table (finish last)])

/-- The finished members of a table. -/
def finish : List (String × Node) → List (String × Toml)
  | [] => []
  | (k, n) :: rest => (k, n.toToml) :: finish rest

/-- The finished tables of an array. -/
def finishAll : List (List (String × Node)) → List Toml
  | [] => []
  | ms :: rest => .table (finish ms) :: finishAll rest

end

end Toml

end BoundSql
