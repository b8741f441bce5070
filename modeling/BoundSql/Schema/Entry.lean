import BoundSql.Json.Basic
import BoundSql.Schema.Token
import BoundSql.Toml.Basic

/-!
# Entries

An `Entry` is what templates see of a document, whichever format it is written in: numbers, texts,
lists and members in the order of the text.  `Token.ofEntry?` reads a token of a column: a mapping is
a default if it has exactly one member of that name and its value is a token, else a check if it has
exactly one member of that name and its value is text.
-/

namespace BoundSql

/-- A part of a document. -/
inductive Entry where
  | integer (i : Int64)
  | real (x : Binary64)
  | text (s : String)
  | list (items : List Entry)
  | members (members : List (String × Entry))
  /-- Anything that has no place in a template: a truth value or nothing. -/
  | other
deriving Repr

namespace Entry

/-! ### Documents as entries -/

/-- A number is an integer if 64 bits with sign hold it, else floating point. -/
def ofNumber (n : Json.Number) : Entry :=
  match n.int64? with
  | some i => .integer i
  | none => .real n.toReal

mutual

/-- A JSON document as an entry. -/
def ofJson : Json → Entry
  | .null => .other
  | .boolean _ => .other
  | .number n => ofNumber n
  | .string s => .text s
  | .array items => .list (ofJsonItems items)
  | .object ms => .members (ofJsonMembers ms)

/-- The entries of items. -/
def ofJsonItems : List Json → List Entry
  | [] => []
  | j :: rest => ofJson j :: ofJsonItems rest

/-- The entries of members. -/
def ofJsonMembers : List (String × Json) → List (String × Entry)
  | [] => []
  | (name, j) :: rest => (name, ofJson j) :: ofJsonMembers rest

end

/-- The name of the only member of the mapping that a moment is read as. -/
def momentName : String := "$__toml_private_datetime"

mutual

/-- A TOML value as an entry; a moment is a mapping with one member. -/
def ofToml : Toml → Entry
  | .text s => .text s
  | .integer i => .integer i
  | .real x => .real x
  | .boolean _ => .other
  | .moment s => .members [(momentName, .text s)]
  | .array items => .list (ofTomlItems items)
  | .table ms => .members (ofTomlMembers ms)

/-- The entries of items. -/
def ofTomlItems : List Toml → List Entry
  | [] => []
  | v :: rest => ofToml v :: ofTomlItems rest

/-- The entries of members. -/
def ofTomlMembers : List (String × Toml) → List (String × Entry)
  | [] => []
  | (name, v) :: rest => (name, ofToml v) :: ofTomlMembers rest

end

theorem ofJsonItems_eq_map (items : List Json) : ofJsonItems items = items.map ofJson := by
  induction items with
  | nil => rfl
  | cons j rest ih => simp only [ofJsonItems, ih, List.map_cons]

theorem ofJsonMembers_eq_map (ms : List (String × Json)) :
    ofJsonMembers ms = ms.map fun m => (m.1, ofJson m.2) := by
  induction ms with
  | nil => rfl
  | cons m rest ih => simp only [ofJsonMembers, ih, List.map_cons]

/-- The text, if the entry is one. -/
def text? : Entry → Option String
  | .text s => some s
  | _ => none

/-- The values of all members with this name. -/
def valuesOf (name : String) (ms : List (String × Entry)) : List Entry :=
  (ms.filter fun m => m.1 == name).map Prod.snd

end Entry

namespace Token

/-- The member that makes a mapping a default. -/
def defaultName : String := "DEFAULT"

/-- The member that makes a mapping a check. -/
def checkName : String := "CHECK"

/-- The check that members write, if exactly one of them does. -/
def checkOf? (members : List (String × Entry)) : Option Token :=
  match Entry.valuesOf checkName members with
  | [.text s] => some (.check s)
  | _ => none

mutual

/-- The token that an entry writes. -/
def ofEntry? : Entry → Option Token
  | .integer i => some (.integer i)
  | .real x => some (.real x)
  | .text s => some (.ofText s)
  | .list items => (ofEntries? items).map .list
  | .members ms =>
    match defaultsOf ms with
    | [some t] => some (.default t)
    | _ => checkOf? ms
  | .other => none

/-- The tokens that entries write. -/
def ofEntries? : List Entry → Option (List Token)
  | [] => some []
  | e :: rest => do
    let t ← ofEntry? e
    let ts ← ofEntries? rest
    return t :: ts

/-- For each default among the members, the token that its value writes. -/
def defaultsOf : List (String × Entry) → List (Option Token)
  | [] => []
  | (name, e) :: rest =>
    if name = defaultName then ofEntry? e :: defaultsOf rest else defaultsOf rest

end

theorem ofEntries?_eq_mapM (items : List Entry) : ofEntries? items = items.mapM ofEntry? := by
  induction items with
  | nil => rfl
  | cons e rest ih => simp only [ofEntries?, ih, List.mapM_cons]

theorem defaultsOf_eq_map (members : List (String × Entry)) :
    defaultsOf members = (Entry.valuesOf defaultName members).map ofEntry? := by
  induction members with
  | nil => rfl
  | cons m rest ih =>
    obtain ⟨name, e⟩ := m
    by_cases h : name = defaultName <;>
      simp only [defaultsOf, h, ih, Entry.valuesOf, List.filter_cons, beq_iff_eq, ↓reduceIte,
        List.map_cons]

end Token

end BoundSql
