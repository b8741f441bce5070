import BoundSql.Config.Basic
import BoundSql.Toml.Printer
import BoundSql.Toml.Reader

/-!
# Settings as text

Settings are kept as a document with a line for each setting; a missing setting has its default and
an unknown one is ignored.  `Config.text` writes all settings, `Config.ofText` reads them.  A string
with a line break, or one that no plain pair of quotes can hold, is written here as in `Toml.quote`,
where the saved text may choose another form of the same string.
-/

namespace BoundSql

namespace Config

/-- The settings with one more member of a document. -/
def addMember? (c : Config) : String × Toml → Option Config
  | ("path", .text s) => some { c with path := some s }
  | ("log_level", .text s) => some { c with logLevel := s }
  | ("fast_path", .boolean b) => some { c with fastPath := b }
  | (name, _) =>
    if name = "path" ∨ name = "log_level" ∨ name = "fast_path" then none else some c

/-- The settings that a text writes. -/
def ofText (s : String) : Except ConfigError Config :=
  match (Toml.ofText? s).bind fun ms => ms.foldlM addMember? {} with
  | some c => .ok c
  | none => .error .malformed

/-- The line of the file, if there is one. -/
def pathLine : Option String → List Char
  | some p => Toml.assignment "path" (Toml.quote p)
  | none => []

/-- The text of settings. -/
def text (c : Config) : String :=
  String.ofList (pathLine c.path ++ Toml.assignment "log_level" (Toml.quote c.logLevel) ++
    Toml.assignment "fast_path" (if c.fastPath then "true" else "false").toList)

end Config

end BoundSql
