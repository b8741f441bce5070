import BoundSql.Text.Blank
import BoundSql.Text.Capital

/-!
# Schema keywords

The words of a column definition that are SQL rather than data.  `Keyword.parse?` recognises a
keyword by its words: letter case does not matter, and any white space or underscores separate
words.
-/

namespace BoundSql

/-- A keyword of a column definition. -/
inductive Keyword where
  | integer
  | text
  | real
  | blob
  | numeric
  | primaryKey
  | autoincrement
  | notNull
  | null
  | unique
  | currentTimestamp
  | currentDate
  | currentTime
deriving DecidableEq, Repr

namespace Keyword

/-- The text of a keyword. -/
def sql : Keyword → String
  | integer => "INTEGER"
  | text => "TEXT"
  | real => "REAL"
  | blob => "BLOB"
  | numeric => "NUMERIC"
  | primaryKey => "PRIMARY KEY"
  | autoincrement => "AUTOINCREMENT"
  | notNull => "NOT NULL"
  | null => "NULL"
  | unique => "UNIQUE"
  | currentTimestamp => "CURRENT_TIMESTAMP"
  | currentDate => "CURRENT_DATE"
  | currentTime => "CURRENT_TIME"

/-- All keywords. -/
def all : List Keyword :=
  [integer, text, real, blob, numeric, primaryKey, autoincrement, notNull, null, unique,
   currentTimestamp, currentDate, currentTime]

theorem mem_all (k : Keyword) : k ∈ all := by
  cases k <;> decide

/-- The keyword names a type. -/
def isType : Keyword → Bool
  | integer | text | real | blob | numeric => true
  | _ => false

/-- Characters between the words of a keyword. -/
def separates (c : Char) : Bool := c == '_' || Text.isBlank c

/-- The words of a text in upper case. -/
def words (s : String) : List (List Char) := (Text.words separates s.toList).map Text.upper

/-- The keyword whose words the text has; `INT` is short for `INTEGER`. -/
def parse? (s : String) : Option Keyword :=
  if words s = [['I', 'N', 'T']] then some integer
  else all.find? fun k => words k.sql = words s

end Keyword

end BoundSql
