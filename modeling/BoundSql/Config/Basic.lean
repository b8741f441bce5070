import BoundSql.Text.Blank
import BoundSql.Text.Digit

/-!
# Settings

The settings of a database: which file it is in, how much is reported, and whether a single insert
is first tried without looking up the columns.  A level of reporting is read from its name in any
letter case or from its number.
-/

namespace BoundSql

/-- How much is reported, from errors only to everything. -/
inductive LogLevel where
  | error
  | warn
  | info
  | debug
  | trace
deriving DecidableEq, Repr

namespace LogLevel

/-- The name of a level. -/
def name : LogLevel → String
  | error => "ERROR"
  | warn => "WARN"
  | info => "INFO"
  | debug => "DEBUG"
  | trace => "TRACE"

/-- All levels; the number of a level is its position, counted from one. -/
def all : List LogLevel := [error, warn, info, debug, trace]

/-- The number that decimal digits write, after a plus sign or none. -/
def number? (s : List Char) : Option Nat :=
  let digits := match s with
    | '+' :: rest => rest
    | _ => s
  if !digits.isEmpty && digits.all Char.isDigit then some (Text.decimalOf digits) else none

/-- The level with this number, or with this name in any letter case. -/
def parse? (s : List Char) : Option LogLevel :=
  match number? s with
  | some 0 => none
  | some (n + 1) => all[n]?
  | none => all.find? fun l => l.name.toList = s.map Char.toUpper

end LogLevel

/-- The settings of a database. -/
structure Config where
  /-- The file of the database; without one it is kept in memory. -/
  path : Option String := none
  /-- The level of reporting, by name or number. -/
  logLevel : String := "warn"
  /-- A single insert is first tried without looking up the columns. -/
  fastPath : Bool := true
deriving DecidableEq, Repr

/-- What is wrong with settings or with how they are kept. -/
inductive ConfigError where
  /-- The text is no document or a setting has the wrong type. -/
  | malformed
  /-- There is no file with this path. -/
  | unreadable (path : String)
  /-- The file with this path holds no settings. -/
  | invalid (path : String)
  /-- There is no such level of reporting. -/
  | unknownLevel (level : String)
  /-- What is reported already goes somewhere. -/
  | subscriberPresent
deriving DecidableEq, Repr

/-- The words for what is wrong with settings. -/
def ConfigError.message : ConfigError → String
  | malformed => "Failed to parse configuration"
  | unreadable path => "Failed to read configuration file: " ++ path
  | invalid path => "Invalid configuration in " ++ path
  | unknownLevel level => "Unknown log level: " ++ level
  | subscriberPresent => "Failed to install log subscriber"

namespace Config

/-- The level of reporting. -/
def level (c : Config) : Except ConfigError LogLevel :=
  match LogLevel.parse? (Text.trim c.logLevel.toList) with
  | some l => .ok l
  | none => .error (.unknownLevel c.logLevel)

/-- Directs what is reported to a subscriber, of which there can be only one. -/
def initLogging (c : Config) (present : Bool) : Except ConfigError LogLevel := do
  let l ← c.level
  if present then .error .subscriberPresent else .ok l

end Config

end BoundSql
