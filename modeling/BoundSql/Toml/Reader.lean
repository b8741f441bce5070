import BoundSql.Toml.Node
import BoundSql.Toml.Scalar

/-!
# Reading TOML

`Toml.ofText?` reads a document of TOML 1.0 as a table.  A byte order mark in front is skipped.
Arrays and tables in braces nest at most `Toml.maxDepth` deep.
-/

namespace BoundSql

namespace Toml

/-! ### Values -/

/-- How deep arrays and tables in braces nest at most. -/
def maxDepth : Nat := 79

/-- Reads an array whose items `item` reads. -/
def arrayOf (item : Reader Toml) : Reader Toml := do
  Reader.char '['
  filler
  let items ← Reader.separated (do filler; let v ← item; filler; return v) (Reader.char ',')
  if !items.isEmpty then
    let _ ← Reader.optional (Reader.char ',')
  filler
  Reader.char ']'
  return .array items

/-- The members of a table in braces, whose keys must differ. -/
def ofPairs? (pairs : List (Key × Toml)) : Option (List (String × Toml)) :=
  (pairs.foldlM (fun ms p => Members.insert p.1 p.2 .header ms) []).map finish

/-- Reads a key and a value, which `item` reads. -/
def pair (item : Reader Toml) : Reader (Key × Toml) := do
  let k ← key
  Reader.char '='
  spaces
  let v ← item
  return (k, v)

/-- Reads a table in braces whose values `item` reads. -/
def tableOf (item : Reader Toml) : Reader Toml := do
  Reader.char '\x7b'
  let pairs ← Reader.separated (do let p ← pair item; spaces; return p) (Reader.char ',')
  spaces
  Reader.char '\x7d'
  let members ← liftM (ofPairs? pairs)
  return .table members

/-- Reads a value with at most so many arrays and tables inside one another. -/
def value : Nat → Reader Toml
  | 0 => scalar
  | depth + 1 => arrayOf (value depth) <|> tableOf (value depth) <|> scalar

/-! ### Lines -/

/-- What a line of a document says. -/
inductive Line where
  | blank
  | pair (k : Key) (v : Toml)
  /-- The header of a table. -/
  | table (k : Key)
  /-- The header of a further table of an array. -/
  | element (k : Key)
deriving Repr

/-- Reads a line with its end. -/
def line : Reader Line :=
  (do comment; lineEnd; return .blank) <|>
  (do newline; return .blank) <|>
  (do
    Reader.exactly ['[', '[']
    let k ← key
    Reader.exactly [']', ']']
    trailing
    return .element k) <|>
  (do
    Reader.char '['
    let k ← key
    Reader.char ']'
    trailing
    return .table k) <|>
  (do
    let (k, v) ← pair (value maxDepth)
    trailing
    return .pair k v)

/-- Reads lines up to the end of the text. -/
def lines : Reader (List Line) := do
  let _ ← Reader.optional (Reader.char '\ufeff')
  spaces
  let ls ← Reader.many (do let l ← line; spaces; return l)
  Reader.atEnd
  return ls

/-! ### Documents -/

/-- A document that is still being read: its members and the path of the open table. -/
structure Draft where
  members : Members := []
  path : List String := []

/-- The document after one more line. -/
def Draft.add (d : Draft) : Line → Option Draft
  | .blank => some d
  | .pair k v => (d.members.insertAt d.path k v).map fun ms => ⟨ms, d.path⟩
  | .table k => (d.members.openTable k).map fun ms => ⟨ms, k.parts⟩
  | .element k => (d.members.openElement k).map fun ms => ⟨ms, k.parts⟩

/-- The members of the document that lines write. -/
def ofLines? (ls : List Line) : Option (List (String × Toml)) :=
  (ls.foldlM Draft.add {}).map fun d => finish d.members

/-- The members of the document that a text writes. -/
def ofText? (s : String) : Option (List (String × Toml)) := do
  let ls ← lines.whole s.toList
  ofLines? ls

end Toml

end BoundSql
