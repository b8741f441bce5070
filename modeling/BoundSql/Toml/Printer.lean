import BoundSql.Json.Printer

/-!
# Printing strings of TOML

A string is written as it stands if one of the two kinds of quotes allows it: in double quotes if it
has no double quote, backslash or control character, else in single quotes if it has no single quote
and no control character.  Any other string is written in double quotes with escapes, on one line.

Of these other strings only what they read back as is promised.  TOML has strings over several lines
and in triple quotes for them as well, and the text that is saved may use those, so it may differ
from the one here.  Saved settings are therefore shown to be kept however strings are spelled.
-/

namespace BoundSql

namespace Toml

/-- The character is a control character. -/
def isControl (c : Char) : Bool := c.toNat < 0x20 || c.toNat == 0x7f

/-- A character as it stands in a basic string. -/
def escapeText (c : Char) : List Char :=
  match c with
  | '"' => ['\\', '"']
  | '\\' => ['\\', '\\']
  | '\x08' => ['\\', 'b']
  | '\x0c' => ['\\', 'f']
  | '\n' => ['\\', 'n']
  | '\r' => ['\\', 'r']
  | '\t' => ['\\', 't']
  | c =>
    if isControl c then
      ['\\', 'u', '0', '0', Json.hexDigit (c.toNat / 16), Json.hexDigit (c.toNat % 16)]
    else [c]

/-- The text of a string. -/
def quote (s : String) : List Char :=
  if s.toList.all fun c => !(isControl c || c == '"' || c == '\\') then
    '"' :: (s.toList ++ ['"'])
  else if s.toList.all fun c => !(isControl c || c == '\x27') then
    '\x27' :: (s.toList ++ ['\x27'])
  else '"' :: (s.toList.flatMap escapeText ++ ['"'])

/-- The line that gives a key without quotes a value. -/
def assignment (key : String) (value : List Char) : List Char :=
  key.toList ++ ([' ', '=', ' '] ++ (value ++ ['\n']))

end Toml

end BoundSql
