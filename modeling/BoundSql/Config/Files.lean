import BoundSql.Config.Text

/-!
# Files with settings

A directory of files by path, and settings kept in them.
-/

namespace BoundSql

/-- Texts by the path of their file, the latest first. -/
abbrev Files := List (String × String)

namespace Files

/-- The text of a file. -/
def read? (fs : Files) (path : String) : Option String := fs.lookup path

/-- The files with this text in this file. -/
def write (fs : Files) (path text : String) : Files := (path, text) :: fs

theorem read?_write (fs : Files) (path text : String) :
    (fs.write path text).read? path = some text := by
  simp only [read?, write, List.lookup_cons, beq_self_eq_true]

end Files

namespace Config

/-- The file of the settings in a directory of settings. -/
def defaultPath (directory : String) : String := directory ++ "/sqleasy/config.toml"

/-- The settings in a file. -/
def load (fs : Files) (path : String) : Except ConfigError Config :=
  match fs.read? path with
  | none => .error (.unreadable path)
  | some s => (ofText s).mapError fun _ => .invalid path

/-- The settings in a file, or the defaults if there is no such file. -/
def loadOrDefault (fs : Files) (path : String) : Except ConfigError Config :=
  if (fs.read? path).isSome then load fs path else .ok {}

/-- The files with the settings in a file. -/
def save (c : Config) (fs : Files) (path : String) : Files := fs.write path c.text

end Config

end BoundSql
