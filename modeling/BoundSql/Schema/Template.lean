import BoundSql.Json.Reader
import BoundSql.Schema.Entry
import BoundSql.Schema.Table
import BoundSql.Toml.Reader

/-!
# Templates

A template is a document that maps tables to columns and columns to their specification.  The
foreign keys of a table stand under a name that no column can have: they map a column to the table
and the column that it refers to.  Tables, columns and foreign keys keep their order, and repeated
names are kept.
-/

namespace BoundSql

/-- The member of a table that holds its foreign keys. -/
def foreignKeyName : String := "FOREIGN_KEY"

/-- The specification that an entry writes: a list is a list of tokens. -/
def ColumnSpec.ofEntry? (e : Entry) : Option ColumnSpec := do
  match ← Token.ofEntry? e with
  | .list tokens => return .many tokens
  | t => return .one t

/-- How many elements the list of a foreign key has. -/
inductive ReferenceArity where
  /-- Exactly two. -/
  | exact
  /-- Two or more, of which the first two count. -/
  | leading
deriving DecidableEq, Repr

namespace ForeignKey

/-- The foreign key of a column that an entry writes. -/
def ofEntry? (arity : ReferenceArity) (column : String) : Entry → Option ForeignKey
  | .list (.text table :: .text referenced :: rest) =>
    if rest.isEmpty || arity == .leading then some ⟨column, table, referenced⟩ else none
  | _ => none

/-- The foreign keys that an entry writes. -/
def listOfEntry? (arity : ReferenceArity) : Entry → Option (List ForeignKey)
  | .members ms => ms.mapM fun m => ofEntry? arity m.1 m.2
  | _ => none

end ForeignKey

namespace TableDef

/-- The table with one more member.  Foreign keys may be given again only if there are none yet. -/
def addMember? (arity : ReferenceArity) (t : TableDef) (m : String × Entry) : Option TableDef :=
  if m.1 = foreignKeyName then
    if t.foreignKeys.isEmpty then
      (ForeignKey.listOfEntry? arity m.2).map fun keys => { t with foreignKeys := keys }
    else none
  else
    (ColumnSpec.ofEntry? m.2).map fun spec => { t with columns := t.columns ++ [(m.1, spec)] }

/-- The table that an entry writes. -/
def ofEntry? (arity : ReferenceArity) : Entry → Option TableDef
  | .members ms => ms.foldlM (addMember? arity) {}
  | _ => none

end TableDef

namespace Template

/-- The template that members write. -/
def ofMembers? (arity : ReferenceArity) (ms : List (String × Entry)) : Option Template :=
  (ms.mapM fun m => (TableDef.ofEntry? arity m.2).map fun t => (m.1, t)).map Template.mk

/-- The template that a JSON document writes. -/
def ofJson? (j : Json) : Option Template :=
  match Entry.ofJson j with
  | .members ms => ofMembers? .exact ms
  | _ => none

/-- The template that a JSON text writes. -/
def ofJsonText? (s : String) : Option Template := do
  let j ← Json.ofText? s
  ofJson? j

/-- The template that a TOML text writes. -/
def ofTomlText? (s : String) : Option Template := do
  let ms ← Toml.ofText? s
  ofMembers? .leading (Entry.ofTomlMembers ms)

end Template

end BoundSql
