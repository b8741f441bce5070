/-!
# White space and words

`isBlank` is the White_Space property of Unicode.  Texts are trimmed of blanks, and split into
`pieces` at separators; the pieces that are not empty are the `words` of a text.
-/

namespace BoundSql

namespace Text

/-- The code points with the White_Space property, as ranges. -/
def blankRanges : List (Nat × Nat) :=
  [(0x09, 0x0d), (0x20, 0x20), (0x85, 0x85), (0xa0, 0xa0), (0x1680, 0x1680), (0x2000, 0x200a),
   (0x2028, 0x2029), (0x202f, 0x202f), (0x205f, 0x205f), (0x3000, 0x3000)]

/-- The character is white space. -/
def isBlank (c : Char) : Bool :=
  blankRanges.any fun r => r.1 ≤ c.toNat && c.toNat ≤ r.2

/-- The text without its leading blanks. -/
def trimLeft (s : List Char) : List Char :=
  s.dropWhile isBlank

/-- The text without its leading and its trailing blanks. -/
def trim (s : List Char) : List Char :=
  (trimLeft (trimLeft s).reverse).reverse

/-- A string without its leading and its trailing blanks. -/
def trimString (s : String) : String :=
  String.ofList (trim s.toList)

/-- The text between separators, empty pieces included. -/
def pieces (separates : Char → Bool) : List Char → List (List Char)
  | [] => [[]]
  | c :: rest =>
    if separates c then [] :: pieces separates rest
    else
      match pieces separates rest with
      | [] => [[c]]
      | p :: ps => (c :: p) :: ps

/-- The maximal runs of characters that do not separate. -/
def words (separates : Char → Bool) (s : List Char) : List (List Char) :=
  (pieces separates s).filter fun p => !p.isEmpty

end Text

end BoundSql
