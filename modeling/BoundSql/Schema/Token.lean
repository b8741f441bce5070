import BoundSql.Decimal.Layout
import BoundSql.Error
import BoundSql.Schema.Keyword

/-!
# Tokens of a column definition

A column is specified by tokens: keywords, numbers, free text, lists, defaults and checks.
`Token.render` is the text of a token, and `Token.rank` its place in a column definition: first the
type, then the constraints in the order of SQLite's grammar.  `columnDefinition` renders tokens
ordered by rank, tokens of one rank in the order given.
-/

namespace BoundSql

/-- A part of the specification of a column. -/
inductive Token where
  | keyword (k : Keyword)
  | integer (i : Int64)
  | real (x : Binary64)
  /-- Text that is part of the schema as it stands. -/
  | text (s : String)
  | list (items : List Token)
  | default (t : Token)
  | check (condition : String)
deriving Repr

namespace Token

/-- What holds of a list if it holds of its items holds of all tokens. -/
@[induction_eliminator]
theorem ind {motive : Token → Prop} (keyword : ∀ k, motive (.keyword k))
    (integer : ∀ i, motive (.integer i)) (real : ∀ x, motive (.real x))
    (text : ∀ s, motive (.text s))
    (list : ∀ items, (∀ t ∈ items, motive t) → motive (.list items))
    (default : ∀ t, motive t → motive (.default t)) (check : ∀ s, motive (.check s)) (t : Token) :
    motive t :=
  @Token.rec motive (fun items => ∀ t ∈ items, motive t) keyword integer real text list default
    check (fun _ h => absurd h List.not_mem_nil)
    (fun _ _ h hs => List.forall_mem_cons.2 ⟨h, hs⟩) t

/-- A text is a keyword if it reads as one. -/
def ofText (s : String) : Token :=
  match Keyword.parse? s with
  | some k => .keyword k
  | none => .text s

/-! ### Text -/

mutual

/-- The text of a token.  A list is the texts of its items with spaces in between; an empty list
has no text. -/
def render : Token → Except Error String
  | .keyword k => .ok k.sql
  | .integer i => .ok (toString i.toInt)
  | .real x => .ok x.display
  | .text s => .ok s
  | .list [] => .error .emptySequence
  | .list (t :: rest) => do
    let s ← render t
    let ss ← renderAll rest
    return " ".intercalate (s :: ss)
  | .default t => do
    let s ← render t
    return "DEFAULT " ++ s
  | .check condition => .ok ("CHECK (" ++ condition ++ ")")

/-- The texts of tokens. -/
def renderAll : List Token → Except Error (List String)
  | [] => .ok []
  | t :: rest => do
    let s ← render t
    let ss ← renderAll rest
    return s :: ss

end

theorem renderAll_eq_mapM (ts : List Token) : renderAll ts = ts.mapM render := by
  induction ts with
  | nil => rfl
  | cons t rest ih => simp only [renderAll, ih, List.mapM_cons]

/-- A list with items is the texts of the items with spaces in between. -/
theorem render_list_cons (t : Token) (rest : List Token) :
    render (.list (t :: rest)) = (" ".intercalate ·) <$> (t :: rest).mapM render := by
  rw [render, renderAll_eq_mapM, List.mapM_cons]
  simp only [map_bind, map_pure]

/-! ### Rank -/

/-- The first word of a text: what stands before white space or an opening parenthesis. -/
def leadingWord (s : String) : List Char :=
  (Text.trimLeft s.toList).takeWhile fun c => !(Text.isBlank c || c == '(')

/-- The rank of free text, by its first word in any letter case. -/
def rankOfText (s : String) : Nat :=
  match String.ofList (Text.upper (leadingWord s)) with
  | "PRIMARY" => 1
  | "AUTOINCREMENT" => 2
  | "NOT" | "NULL" => 3
  | "UNIQUE" => 4
  | "DEFAULT" => 5
  | "CHECK" => 6
  | "COLLATE" | "REFERENCES" | "GENERATED" | "AS" | "CONSTRAINT" => 7
  | _ => 0

/-- The rank of a keyword. -/
def rankOfKeyword : Keyword → Nat
  | .integer | .text | .real | .blob | .numeric => 0
  | .primaryKey => 1
  | .autoincrement => 2
  | .notNull | .null => 3
  | .unique => 4
  | .currentTimestamp | .currentDate | .currentTime => 5

/-- The place of a token in a column definition. -/
def rank : Token → Nat
  | .keyword k => rankOfKeyword k
  | .integer _ | .real _ | .list _ => 0
  | .text s => rankOfText s
  | .default _ => 5
  | .check _ => 6

/-- The tokens ordered by rank, those of one rank in the order given. -/
def sorted (tokens : List Token) : List Token :=
  tokens.mergeSort fun a b => a.rank ≤ b.rank

end Token

/-- The definition of a column with these tokens. -/
def columnDefinition (tokens : List Token) : Except Error String := do
  let parts ← Token.renderAll (Token.sorted tokens)
  return " ".intercalate parts

end BoundSql
