import BoundSql.Proofs.Json.Scalars
import Mathlib.Data.List.TakeWhile

/-!
# The texts of a document

`Json.Writes` says which texts write a document: its containers with white space around their
parts, and its scalars as `Json.scalar` reads them.  `Json.ofText?_of_textOf` says that each of
them is read as the document, however deep its containers nest up to `Json.maxDepth`.
-/

namespace BoundSql

namespace Json

open Reader (orElse_apply bind_apply char_self char_of_ne manyUpTo_of_none manyUpTo_of_some)

/-! ### Parts of a container -/

/-- Texts of parts with commas in between and white space around each. -/
inductive Parts {α : Type} (R : α → List Char → Prop) : List α → List Char → Prop where
  | none {w : List Char} (hw : Blank w) : Parts R [] w
  | one {a : α} {w s w' : List Char} (hw : Blank w) (h : R a s) (hw' : Blank w') :
    Parts R [a] (w ++ (s ++ w'))
  | more {a : α} {as : List α} {w s w' rest : List Char} (hw : Blank w) (h : R a s)
    (hw' : Blank w') (has : as ≠ []) (hrest : Parts R as rest) :
    Parts R (a :: as) (w ++ (s ++ (w' ++ ',' :: rest)))

/-- A text of a member: its name, a colon, and a text of its value. -/
inductive Member (R : Json → List Char → Prop) (m : String × Json) : List Char → Prop where
  | mk {key w w' s : List Char} (hkey : quoted key = some (m.1, [])) (hw : Blank w)
    (hw' : Blank w') (h : R m.2 s) : Member R m (key ++ (w ++ ':' :: (w' ++ s)))

/-- The text writes the document, with containers at most so deep inside one another and no white
space around it. -/
def Writes : Nat → Json → List Char → Prop
  | 0, j, s => scalar s = some (j, [])
  | depth + 1, j, s =>
    scalar s = some (j, []) ∨
    (∃ items inner, j = .array items ∧ s = '[' :: (inner ++ [']']) ∧
      Parts (Writes depth) items inner) ∨
    (∃ ms inner, j = .object ms ∧ s = '\x7b' :: (inner ++ ['\x7d']) ∧
      Parts (Member (Writes depth)) ms inner)

/-! ### Reading the parts -/

/-- Reads a part and the white space after it. -/
def part {α : Type} (p : Reader α) : Reader α := do
  let a ← p
  spaces
  return a

/-- Reads a comma and the white space after it. -/
def comma : Reader Unit := do
  Reader.char ','
  spaces

/-- Reads the parts of a container. -/
def parts {α : Type} (p : Reader α) : Reader (List α) := do
  spaces
  Reader.separated (part p) comma

/-- The reader takes the text of a part and nothing that may follow it, and fails at the end of the
container. -/
structure Reads {α : Type} (R : α → List Char → Prop) (p : Reader α) : Prop where
  append {a : α} {s : List Char} (h : R a s) {rest : List Char} (hrest : Ended rest) :
    p (s ++ rest) = some (a, rest)
  head {a : α} {s : List Char} (h : R a s) : ∃ c s', s = c :: s' ∧ isSpace c = false
  close {c : Char} (hc : c = ']' ∨ c = '\x7d') (rest : List Char) : p (c :: rest) = none

/-- The character ends a part, or the container. -/
def delimits (c : Char) : Prop := c = ',' ∨ c = ']' ∨ c = '\x7d'

theorem isSpace_of_delimits {c : Char} (h : delimits c) : isSpace c = false := by
  rcases h with rfl | rfl | rfl <;> decide

theorem dropWhile_blank {w s : List Char} (hw : Blank w) {c : Char} (hc : isSpace c = false) :
    (w ++ c :: s).dropWhile isSpace = c :: s := by
  rw [List.dropWhile_append_of_pos hw, List.dropWhile_cons_of_neg (Bool.eq_false_iff.1 hc)]

theorem ended_blank {w : List Char} (hw : Blank w) {c : Char} (hc : delimits c) (rest : List Char) :
    Ended (w ++ c :: rest) := by
  intro c' hc'
  cases w with
  | nil =>
    cases hc'
    rcases hc with rfl | rfl | rfl <;> decide
  | cons b w =>
    obtain rfl : b = c' := Option.some.inj hc'
    have hspace := hw b List.mem_cons_self
    simp only [ends, hspace, Bool.true_or]

section Parts

variable {α : Type} {R : α → List Char → Prop} {p : Reader α}

theorem part_apply (p : Reader α) (s : List Char) :
    part p s = (p s).map fun x => (x.1, x.2.dropWhile isSpace) := by
  change (p s).bind (fun x => some (x.1, x.2.dropWhile isSpace)) = _
  cases p s <;> rfl

theorem parts_apply (p : Reader α) (s : List Char) :
    parts p s = Reader.separated (part p) comma (s.dropWhile isSpace) := rfl

/-- A part is read up to what delimits it. -/
theorem part_append (hp : Reads R p) {a : α} {s w : List Char} (h : R a s) (hw : Blank w) {c : Char}
    (hc : delimits c) (rest : List Char) :
    part p (s ++ (w ++ c :: rest)) = some (a, c :: rest) := by
  rw [part_apply, hp.append h (ended_blank hw hc rest), Option.map_some,
    dropWhile_blank hw (isSpace_of_delimits hc)]

/-- What is read again and again after the first part. -/
def next (p : Reader α) : Reader α := do
  let _ ← comma
  part p

theorem next_comma (p : Reader α) (s : List Char) :
    next p (',' :: s) = part p (s.dropWhile isSpace) := rfl

theorem next_of_ne {c : Char} (h : c ≠ ',') (s : List Char) : next p (c :: s) = none := by
  change ((Reader.char ',' (c :: s)).bind _).bind _ = none
  rw [char_of_ne h]
  rfl

/-- There are no more parts than commas, and one. -/
theorem length_le_of_parts {as : List α} {s : List Char} (h : Parts R as s) :
    as.length ≤ s.length + 1 := by
  induction h with
  | none hw => exact Nat.zero_le _
  | one hw h hw' => exact Nat.le_add_left 1 _
  | more hw h hw' has hrest ih =>
    simp only [List.length_cons, List.length_append]
    omega

/-- The white space before a part is skipped, and no more. -/
theorem dropWhile_part (hp : Reads R p) {a : α} {w s t : List Char} (hw : Blank w) (h : R a s) :
    (w ++ (s ++ t)).dropWhile isSpace = s ++ t := by
  obtain ⟨c, s, rfl, hc⟩ := hp.head h
  exact dropWhile_blank hw hc

/-- The parts after a comma, up to where no more can be read. -/
theorem manyUpTo_next (hp : Reads R p) {as : List α} {s : List Char} (h : Parts R as s)
    (has : as ≠ []) {c : Char} (hc : delimits c) {rest : List Char}
    (hstop : next p (c :: rest) = none) {n : Nat} (hn : as.length ≤ n) :
    Reader.manyUpTo (next p) n (',' :: (s ++ c :: rest)) = some (as, c :: rest) := by
  induction h generalizing n with
  | none hw => exact absurd rfl has
  | @one a w s w' hw h hw' =>
    cases n with
    | zero => exact absurd hn (Nat.not_succ_le_zero _)
    | succ n =>
      refine manyUpTo_of_some ?_ (manyUpTo_of_none hstop n)
      rw [next_comma, List.append_assoc, List.append_assoc, dropWhile_part hp hw h]
      exact part_append hp h hw' hc rest
  | @more a as w s w' r hw h hw' has' hrest ih =>
    cases n with
    | zero => exact absurd hn (Nat.not_succ_le_zero _)
    | succ n =>
      refine manyUpTo_of_some ?_ (ih has' (Nat.le_of_succ_le_succ hn))
      rw [next_comma, List.append_assoc, List.append_assoc, List.append_assoc, List.cons_append,
        dropWhile_part hp hw h]
      exact part_append hp h hw' (.inl rfl) _

/-- Parts are read up to where no more can be read. -/
theorem parts_stop (hp : Reads R p) {as : List α} {s : List Char} (h : Parts R as s)
    (has : as ≠ []) {c : Char} (hc : delimits c) {rest : List Char}
    (hstop : next p (c :: rest) = none) : parts p (s ++ c :: rest) = some (as, c :: rest) := by
  rw [parts_apply, Reader.separated, orElse_apply, Reader.separated1, bind_apply]
  cases h with
  | none hw => exact absurd rfl has
  | one hw h hw' =>
    rw [List.append_assoc, List.append_assoc, dropWhile_part hp hw h,
      part_append hp h hw' hc rest, Option.bind_some, bind_apply]
    change (((Reader.manyUpTo (next p) _ (c :: rest)).bind _).or _) = _
    rw [manyUpTo_of_none hstop]
    rfl
  | @more a as w s w' r hw h hw' has' hrest =>
    rw [List.append_assoc, List.append_assoc, List.append_assoc, List.cons_append,
      dropWhile_part hp hw h, part_append hp h hw' (.inl rfl), Option.bind_some, bind_apply]
    change (((Reader.manyUpTo (next p) _ (',' :: (r ++ c :: rest))).bind _).or _) = _
    have hlength := length_le_of_parts hrest
    rw [manyUpTo_next hp hrest has' hc hstop]
    · rfl
    · simp only [List.length_cons, List.length_append]
      omega

/-- A container has no parts if none can be read. -/
theorem parts_of_none {s : List Char} (h : p (s.dropWhile isSpace) = none) :
    parts p s = some ([], s.dropWhile isSpace) := by
  rw [parts_apply, Reader.separated, orElse_apply, Reader.separated1, bind_apply, part_apply, h]
  rfl

/-- **The parts of a container are read** up to its end. -/
theorem parts_append (hp : Reads R p) {as : List α} {s : List Char} (h : Parts R as s) {c : Char}
    (hc : c = ']' ∨ c = '\x7d') (rest : List Char) :
    parts p (s ++ c :: rest) = some (as, c :: rest) := by
  by_cases has : as = []
  · subst has
    cases h with
    | none hw =>
      have hs := dropWhile_blank (s := rest) hw (isSpace_of_delimits (.inr hc))
      rw [parts_of_none (by rw [hs, hp.close hc]), hs]
  · have hcomma : c ≠ ',' := by rcases hc with rfl | rfl <;> decide
    exact parts_stop hp h has (.inr hc) (next_of_ne hcomma rest)

end Parts

/-! ### Documents -/

/-- No scalar starts with a character that ends scalars. -/
theorem scalar_of_ends {c : Char} (h : ends c = true) (s : List Char) : scalar (c :: s) = none := by
  have hc := mem_of_ends h
  simp only [endings, List.mem_cons, List.not_mem_nil, or_false] at hc
  rcases hc with rfl | rfl | rfl | rfl | rfl | rfl | rfl <;> rfl

theorem reads_scalar : Reads (fun j s => scalar s = some (j, [])) scalar where
  append h _ hrest := scalar_append h hrest
  head := by
    intro j s h
    cases s with
    | nil => cases h
    | cons c s =>
      refine ⟨c, s, rfl, Bool.eq_false_iff.2 fun hc => ?_⟩
      have hends : ends c = true := by simp only [ends, hc, Bool.true_or]
      cases (scalar_of_ends hends s).symm.trans h
  close := by
    rintro c (rfl | rfl) rest <;> rfl

/-- Reads a member. -/
def member (item : Reader Json) : Reader (String × Json) := do
  let name ← quoted
  spaces
  Reader.char ':'
  spaces
  let j ← item
  return (name, j)

theorem objectOf_eq (item : Reader Json) :
    objectOf item = do
      Reader.char '\x7b'
      let ms ← parts (member item)
      Reader.char '\x7d'
      return .object ms := by
  simp only [objectOf, parts, part, comma, member, bind_assoc, pure_bind]

theorem arrayOf_eq (item : Reader Json) :
    arrayOf item = do
      Reader.char '['
      let items ← parts item
      Reader.char ']'
      return .array items := by
  simp only [arrayOf, parts, part, comma, bind_assoc]

theorem reads_member {R : Json → List Char → Prop} {item : Reader Json} (h : Reads R item) :
    Reads (Member R) (member item) where
  append := by
    rintro ⟨name, j⟩ _ hm rest hrest
    cases hm with
    | @mk key w w' s hkey hw hw' hs =>
      obtain ⟨c, s, rfl, hc⟩ := h.head hs
      simp only [List.append_assoc, List.cons_append]
      rw [member, bind_apply, quoted_append hkey, Option.bind_some, List.nil_append]
      change ((Reader.char ':' ((w ++ _).dropWhile isSpace)).bind fun x =>
        (item (x.2.dropWhile isSpace)).bind fun y => some ((name, y.1), y.2)) = _
      rw [dropWhile_blank hw (by decide), char_self, Option.bind_some, dropWhile_blank hw' hc,
        ← List.cons_append, h.append hs hrest]
      rfl
  head := by
    rintro ⟨name, j⟩ _ hm
    cases hm with
    | @mk key w w' s hkey hw hw' hs =>
      cases key with
      | nil => cases hkey
      | cons c key =>
        refine ⟨c, _, rfl, ?_⟩
        by_cases hc : c = '"'
        · subst hc
          decide
        · cases (quoted_of_ne hc key).symm.trans hkey
  close := by
    rintro c (rfl | rfl) rest <;> rfl

/-- A container is read from its opening to its closing character. -/
theorem container_append {α : Type} {R : α → List Char → Prop} {p : Reader α} (hp : Reads R p)
    {as : List α} {s : List Char} (h : Parts R as s) {c : Char} (hc : c = ']' ∨ c = '\x7d')
    (f : List α → Json) (rest : List Char) :
    (do let as ← parts p; Reader.char c; return f as : Reader Json) (s ++ c :: rest) =
      some (f as, rest) := by
  rw [bind_apply, parts_append hp h hc rest, Option.bind_some, bind_apply, char_self]
  rfl

/-- **A document is read from each text that writes it**, and nothing that may follow it. -/
theorem reads_value (depth : Nat) : Reads (Writes depth) (value depth) := by
  induction depth with
  | zero => exact reads_scalar
  | succ depth ih =>
    refine ⟨fun {j s} h {rest} hrest => ?_, fun {j s} h => ?_, ?_⟩
    · rw [value, orElse_apply, orElse_apply]
      obtain h | ⟨items, inner, rfl, rfl, h⟩ | ⟨ms, inner, rfl, rfl, h⟩ := h
      · rw [scalar_append h hrest, Option.some_or]
      · have hread := container_append ih h (.inl rfl) Json.array rest
        have hscalar : scalar ('[' :: (inner ++ ']' :: rest)) = none := rfl
        rw [List.cons_append, List.append_assoc, List.singleton_append, hscalar, Option.none_or,
          arrayOf_eq, bind_apply, char_self, Option.bind_some, hread, Option.some_or]
      · have hread := container_append (reads_member ih) h (.inr rfl) Json.object rest
        have hscalar : scalar ('\x7b' :: (inner ++ '\x7d' :: rest)) = none := rfl
        have harray : arrayOf (value depth) ('\x7b' :: (inner ++ '\x7d' :: rest)) = none := rfl
        rw [List.cons_append, List.append_assoc, List.singleton_append, hscalar, Option.none_or,
          harray, Option.none_or, objectOf_eq, bind_apply, char_self, Option.bind_some, hread]
    · obtain h | ⟨items, inner, rfl, rfl, h⟩ | ⟨ms, inner, rfl, rfl, h⟩ := h
      · exact reads_scalar.head h
      · exact ⟨'[', _, rfl, rfl⟩
      · exact ⟨'\x7b', _, rfl, rfl⟩
    · rintro c (rfl | rfl) rest <;> rfl

/-- The text writes the document, with white space around it. -/
def TextOf (j : Json) (text : String) : Prop :=
  ∃ w s w', text = String.ofList (w ++ (s ++ w')) ∧ Blank w ∧ Writes maxDepth j s ∧ Blank w'

/-- **A document is read from each of its texts.** -/
theorem ofText?_of_textOf {j : Json} {text : String} (h : TextOf j text) :
    ofText? text = some j := by
  obtain ⟨w, s, w', rfl, hw, h, hw'⟩ := h
  obtain ⟨c, s, rfl, hc⟩ := (reads_value maxDepth).head h
  have hended : Ended w' := fun c hc => by
    have hspace := hw' c (List.mem_of_mem_head? hc)
    simp only [ends, hspace, Bool.true_or]
  have hdocument : document (w ++ (c :: s ++ w')) = some (j, []) := by
    rw [document, bind_apply]
    change ((value maxDepth ((w ++ (c :: s ++ w')).dropWhile isSpace)).bind fun x =>
      some (x.1, x.2.dropWhile isSpace)) = _
    rw [List.cons_append, dropWhile_blank hw hc, ← List.cons_append,
      (reads_value maxDepth).append h hended, Option.bind_some, List.dropWhile_eq_nil_iff.2 hw']
  rw [ofText?, Reader.whole, String.toList_ofList, hdocument]

end Json

end BoundSql
