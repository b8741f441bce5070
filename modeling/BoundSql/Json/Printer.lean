import BoundSql.Decimal.Layout
import BoundSql.Json.Basic

/-!
# Printing JSON

`Json.text` is the compact text of a document: no white space, and in strings only the quote, the
backslash and control characters escaped.  A number that is not finite is written `null`.
-/

namespace BoundSql

namespace Json

/-- The lower-case hexadecimal digit of a number below sixteen. -/
def hexDigit (n : Nat) : Char := Nat.digitChar n

/-- A character as it stands in a string. -/
def escape (c : Char) : List Char :=
  match c with
  | '"' => ['\\', '"']
  | '\\' => ['\\', '\\']
  | '\x08' => ['\\', 'b']
  | '\x0c' => ['\\', 'f']
  | '\n' => ['\\', 'n']
  | '\r' => ['\\', 'r']
  | '\t' => ['\\', 't']
  | c =>
    if c.toNat < 0x20 then
      ['\\', 'u', '0', '0', hexDigit (c.toNat / 16), hexDigit (c.toNat % 16)]
    else [c]

/-- A string in quotes. -/
def quote (s : String) : List Char :=
  '"' :: (s.toList.flatMap escape ++ ['"'])

/-- The text of a number. -/
def Number.text : Number → List Char
  | .integer i => (toString i).toList
  | .real x => if x.isFinite then Layout.json.finite x else "null".toList

mutual

/-- The compact text of a document. -/
def compact : Json → List Char
  | .null => "null".toList
  | .boolean b => (if b then "true" else "false").toList
  | .number n => n.text
  | .string s => quote s
  | .array [] => ['[', ']']
  | .array (j :: rest) => '[' :: (compact j ++ compactItems rest ++ [']'])
  | .object [] => ['\x7b', '\x7d']
  | .object ((name, j) :: rest) =>
    '\x7b' :: (quote name ++ ':' :: compact j ++ compactMembers rest ++ ['\x7d'])

/-- The items after the first. -/
def compactItems : List Json → List Char
  | [] => []
  | j :: rest => ',' :: (compact j ++ compactItems rest)

/-- The members after the first. -/
def compactMembers : List (String × Json) → List Char
  | [] => []
  | (name, j) :: rest => ',' :: (quote name ++ ':' :: compact j ++ compactMembers rest)

end

/-- The compact text of a document. -/
def text (j : Json) : String := String.ofList (compact j)

end Json

end BoundSql
