import BoundSql.Proofs.Json.Printing
import BoundSql.Schema.Template
import Mathlib

/-!
# Templates as documents

A template is written as a document by `Template.Encodes`: a member for each table, in it a member
for each column and one for the foreign keys.  A token may be written in several ways, since a
keyword is any text that reads as it, and the foreign keys may stand anywhere among the columns.

Not every template can be told from its documents: a text that reads as a keyword becomes one, a
list that is one token becomes a list of tokens, and a column cannot have the name of the foreign
keys.  `Template.Canonical` excludes these, and `Template.ofJson?_of_encodes` says that all others
are read back as they were, with the order and the repetition of their parts.
-/

namespace BoundSql

/-! ### Tokens -/

namespace Token

/-- A document writes a token. -/
inductive Encodes : Token → Json → Prop where
  /-- A keyword is any text that reads as it. -/
  | keyword {k : Keyword} {s : String} (h : Keyword.parse? s = some k) :
    Encodes (.keyword k) (.string s)
  | integer (i : Int64) : Encodes (.integer i) (.number (.integer i.toInt))
  | real (x : Binary64) : Encodes (.real x) (.number (.real x))
  | text (s : String) : Encodes (.text s) (.string s)
  | list {ts : List Token} {js : List Json} (h : List.Forall₂ Encodes ts js) :
    Encodes (.list ts) (.array js)
  | default {t : Token} {j : Json} (h : Encodes t j) :
    Encodes (.default t) (.object [(defaultName, j)])
  | check (s : String) : Encodes (.check s) (.object [(checkName, .string s)])

/-- No text in a token reads as a keyword. -/
inductive Plain : Token → Prop where
  | keyword (k : Keyword) : Plain (.keyword k)
  | integer (i : Int64) : Plain (.integer i)
  | real (x : Binary64) : Plain (.real x)
  | text {s : String} (h : Keyword.parse? s = none) : Plain (.text s)
  | list {ts : List Token} (h : ∀ t ∈ ts, Plain t) : Plain (.list ts)
  | default {t : Token} (h : Plain t) : Plain (.default t)
  | check (s : String) : Plain (.check s)

theorem ofText_of_parse? {k : Keyword} {s : String} (h : Keyword.parse? s = some k) :
    ofText s = .keyword k := by
  rw [ofText, h]

theorem ofText_of_parse?_eq_none {s : String} (h : Keyword.parse? s = none) :
    ofText s = .text s := by
  rw [ofText, h]

theorem ofEntry?_list (items : List Entry) :
    ofEntry? (.list items) = (items.mapM ofEntry?).map .list := by
  rw [Token.ofEntry?, ofEntries?_eq_mapM]

/-- A mapping with a default and nothing else. -/
theorem ofEntry?_default {e : Entry} {t : Token} (h : ofEntry? e = some t) :
    ofEntry? (.members [(defaultName, e)]) = some (.default t) := by
  simp only [Token.ofEntry?, defaultsOf, h, if_true]

/-- The integers that 64 bits hold are read as they are. -/
theorem ofEntry?_integer (i : Int64) :
    ofEntry? (.ofJson (.number (.integer i.toInt))) = some (.integer i) := by
  have hmin := Int64.minValue_le_toInt i
  have hmax := Int64.toInt_le i
  have hrange : Int64.minValue.toInt ≤ i.toInt ∧ i.toInt ≤ Int64.maxValue.toInt :=
    ⟨hmin, hmax⟩
  simp only [Entry.ofJson, Entry.ofNumber, Json.Number.int64?, if_pos hrange, Int64.ofInt_toInt,
    ofEntry?]

/-- A list of documents writes a list of tokens. -/
theorem ofEntry?_array {ts : List Token} {js : List Json}
    (h : List.Forall₂ (fun j t => ofEntry? (.ofJson j) = some t) js ts) :
    ofEntry? (.ofJson (.array js)) = some (.list ts) := by
  rw [Entry.ofJson, Entry.ofJsonItems_eq_map, ofEntry?_list, List.mapM_map]
  exact congrArg (Option.map Token.list) (mapM_eq_some_iff.2 h)

/-- **A token is read from each document that writes it.** -/
theorem ofEntry?_of_encodes {t : Token} {j : Json} (h : t.Encodes j) (hp : t.Plain) :
    ofEntry? (.ofJson j) = some t := by
  -- The documents of a list are only known to write its items, so the induction is on the token.
  induction t generalizing j with
  | keyword k =>
    cases h with
    | keyword hk => exact congrArg some (ofText_of_parse? hk)
  | integer i =>
    cases h
    exact ofEntry?_integer i
  | real x =>
    cases h
    rfl
  | text s =>
    cases h
    cases hp with
    | text hs => exact congrArg some (ofText_of_parse?_eq_none hs)
  | list ts ih =>
    cases h with
    | list h =>
      cases hp with
      | list hp =>
        refine ofEntry?_array (List.forall₂_iff_get.2 ⟨h.length_eq.symm, fun i hi' hi => ?_⟩)
        exact ih _ (List.get_mem ts ⟨i, hi⟩) (h.get hi hi') (hp _ (List.get_mem ts ⟨i, hi⟩))
  | default t ih =>
    cases h with
    | default h =>
      cases hp with
      | default hp => exact ofEntry?_default (ih h hp)
  | check s =>
    cases h
    rfl

end Token

/-! ### Columns -/

namespace ColumnSpec

/-- A document writes the specification of a column: one token, or an array of several. -/
inductive Encodes : ColumnSpec → Json → Prop where
  | one {t : Token} {j : Json} (h : t.Encodes j) : Encodes (.one t) j
  | many {ts : List Token} {js : List Json} (h : List.Forall₂ Token.Encodes ts js) :
    Encodes (.many ts) (.array js)

/-- No text reads as a keyword, and one token is not a list. -/
inductive Canonical : ColumnSpec → Prop where
  | one {t : Token} (h : t.Plain) (hlist : ∀ ts, t ≠ .list ts) : Canonical (.one t)
  | many {ts : List Token} (h : ∀ t ∈ ts, t.Plain) : Canonical (.many ts)

theorem ofEntry?_many {e : Entry} {ts : List Token} (h : Token.ofEntry? e = some (.list ts)) :
    ofEntry? e = some (.many ts) := by
  rw [ColumnSpec.ofEntry?, h]
  rfl

theorem ofEntry?_one {e : Entry} {t : Token} (h : Token.ofEntry? e = some t)
    (hlist : ∀ ts, t ≠ .list ts) : ofEntry? e = some (.one t) := by
  rw [ColumnSpec.ofEntry?, h]
  cases t with
  | list ts => exact absurd rfl (hlist ts)
  | _ => rfl

/-- A specification is read from each document that writes it. -/
theorem ofEntry?_of_encodes {spec : ColumnSpec} {j : Json} (h : spec.Encodes j)
    (hc : spec.Canonical) : ofEntry? (.ofJson j) = some spec := by
  cases hc with
  | one hp hlist =>
    cases h with
    | one h => exact ofEntry?_one (Token.ofEntry?_of_encodes h hp) hlist
  | many hp =>
    cases h with
    | many h => exact ofEntry?_many (Token.ofEntry?_of_encodes (.list h) (.list hp))

end ColumnSpec

/-! ### Tables -/

namespace ForeignKey

/-- The member that writes a foreign key: its column, with the table and the column it refers to. -/
def member (k : ForeignKey) : String × Json :=
  (k.column, .array [.string k.table, .string k.referenced])

/-- Foreign keys are read from the object of their members. -/
theorem listOfEntry?_members (keys : List ForeignKey) :
    listOfEntry? .exact (.ofJson (.object (keys.map member))) = some keys := by
  rw [Entry.ofJson, Entry.ofJsonMembers_eq_map, listOfEntry?, List.map_map, List.mapM_map]
  exact mapM_eq_some_iff.2 (List.forall₂_same.2 fun k _ => rfl)

end ForeignKey

namespace TableDef

/-- A member writes a column. -/
def EncodesColumn (column : String × ColumnSpec) (m : String × Json) : Prop :=
  column.1 = m.1 ∧ column.2.Encodes m.2

/-- A document writes a table. -/
inductive Encodes : TableDef → Json → Prop where
  /-- Foreign keys need not be written if there are none. -/
  | unkeyed {columns : List (String × ColumnSpec)} {ms : List (String × Json)}
    (h : List.Forall₂ EncodesColumn columns ms) : Encodes ⟨columns, []⟩ (.object ms)
  /-- The member of the foreign keys may stand anywhere. -/
  | keyed {before after : List (String × ColumnSpec)} {ms ms' : List (String × Json)}
    (keys : List ForeignKey) (h : List.Forall₂ EncodesColumn before ms)
    (h' : List.Forall₂ EncodesColumn after ms') :
    Encodes ⟨before ++ after, keys⟩
      (.object (ms ++ (foreignKeyName, .object (keys.map ForeignKey.member)) :: ms'))

/-- No column has the name of the foreign keys, and the specifications can be told from their
documents. -/
def Canonical (t : TableDef) : Prop :=
  ∀ column ∈ t.columns, column.1 ≠ foreignKeyName ∧ column.2.Canonical

/-- The members of columns add them to the table in order. -/
theorem foldlM_addMember? {columns : List (String × ColumnSpec)} {ms : List (String × Json)}
    (h : List.Forall₂ EncodesColumn columns ms)
    (hc : ∀ column ∈ columns, column.1 ≠ foreignKeyName ∧ column.2.Canonical) (t : TableDef) :
    (Entry.ofJsonMembers ms).foldlM (addMember? .exact) t =
      some { t with columns := t.columns ++ columns } := by
  induction h generalizing t with
  | nil => rw [List.append_nil]; rfl
  | @cons column m columns ms hm _ ih =>
    obtain ⟨hcolumn, hc⟩ := List.forall_mem_cons.1 hc
    obtain ⟨hname, hspec⟩ := hm
    have hfirst : addMember? .exact t (m.1, .ofJson m.2) =
        some { t with columns := t.columns ++ [column] } := by
      rw [addMember?, if_neg (hname ▸ hcolumn.1),
        ColumnSpec.ofEntry?_of_encodes hspec hcolumn.2, ← hname]
      rfl
    rw [Entry.ofJsonMembers, List.foldlM_cons, hfirst]
    refine (ih hc _).trans ?_
    rw [List.append_assoc, List.singleton_append]

/-- A table is read from each document that writes it. -/
theorem ofEntry?_of_encodes {t : TableDef} {j : Json} (h : t.Encodes j) (hc : t.Canonical) :
    ofEntry? .exact (.ofJson j) = some t := by
  cases h with
  | unkeyed h => exact foldlM_addMember? h hc {}
  | @keyed before after ms ms' keys h h' =>
    have hbefore := foldlM_addMember? h (fun c hm => hc c (List.mem_append_left after hm)) {}
    have hafter := foldlM_addMember? h' (fun c hm => hc c (List.mem_append_right before hm))
      ⟨before, keys⟩
    have hkeys : addMember? .exact ⟨before, []⟩
        (foreignKeyName, .ofJson (.object (keys.map ForeignKey.member))) =
          some ⟨before, keys⟩ := by
      rw [addMember?, if_pos rfl, ForeignKey.listOfEntry?_members]
      rfl
    rw [Entry.ofJsonMembers_eq_map] at hbefore hafter
    rw [Entry.ofJson, Entry.ofJsonMembers_eq_map, ofEntry?, List.map_append, List.map_cons,
      List.foldlM_append, hbefore]
    simp only [List.nil_append, Option.bind_eq_bind, Option.bind_some, List.foldlM_cons, hkeys,
      hafter]

end TableDef

/-! ### Templates -/

namespace Template

/-- A document writes a template: a member for each table, in order. -/
def Encodes (T : Template) (j : Json) : Prop :=
  ∃ ms, j = .object ms ∧
    List.Forall₂ (fun table m => table.1 = m.1 ∧ table.2.Encodes m.2) T.tables ms

/-- All tables can be told from their documents. -/
def Canonical (T : Template) : Prop := ∀ table ∈ T.tables, table.2.Canonical

/-- **A template is read back from each document that writes it**, from each text of the document,
with white space anywhere and containers as deep as they may be, and so from its compact text. -/
theorem ofJson?_of_encodes {T : Template} {j : Json} (hc : T.Canonical) (h : T.Encodes j) :
    ofJson? j = some T ∧ (∀ text, Json.ofText? text = some j → ofJsonText? text = some T) ∧
      (∀ text, Json.TextOf j text → ofJsonText? text = some T) ∧
      (j.Legible Json.maxDepth → ofJsonText? j.text = some T) := by
  obtain ⟨ms, rfl, h⟩ := h
  have htables : List.Forall₂ (fun m table =>
      ((TableDef.ofEntry? .exact (.ofJson m.2)).map fun t => (m.1, t)) = some table)
      ms T.tables := by
    refine List.forall₂_iff_get.2 ⟨h.length_eq.symm, fun i hi' hi => ?_⟩
    obtain ⟨hname, htable⟩ := h.get hi hi'
    rw [TableDef.ofEntry?_of_encodes htable (hc _ (List.get_mem T.tables ⟨i, hi⟩)), ← hname]
    rfl
  have hread : ofJson? (.object ms) = some T := by
    rw [ofJson?, Entry.ofJson, Entry.ofJsonMembers_eq_map]
    simp only [ofMembers?, List.mapM_map]
    exact congrArg (Option.map Template.mk) (mapM_eq_some_iff.2 htables)
  have htext : ∀ text, Json.ofText? text = some (.object ms) → ofJsonText? text = some T := by
    intro text htext
    rw [ofJsonText?, htext]
    exact hread
  exact ⟨hread, htext, fun text h => htext text (Json.ofText?_of_textOf h),
    fun h => htext _ (Json.ofText?_text h)⟩

/-- A template with repeated tables, columns and foreign keys. -/
def repeated : Template :=
  ⟨[("t",
    ⟨[("n", .many [.keyword .integer, .default (.list [.integer (-3), .text "x"])]),
      ("n", .one (.check "n > 0"))], [⟨"n", "u", "id"⟩, ⟨"n", "u", "id"⟩]⟩),
    ("t", ⟨[], []⟩)]⟩

/-- A document that writes `repeated`, with the foreign keys between the columns. -/
def repeatedJson : Json :=
  .object [
    ("t", .object [
      ("n", .array [.string "int",
        .object [("DEFAULT", .array [.number (.integer (-3)), .string "x"])]]),
      ("FOREIGN_KEY", .object [("n", .array [.string "u", .string "id"]),
        ("n", .array [.string "u", .string "id"])]),
      ("n", .object [("CHECK", .string "n > 0")])]),
    ("t", .object [])]

/-- A text of `repeatedJson`. -/
def repeatedText : String :=
  "\x7b\"t\": \x7b\"n\": [\"int\", \x7b\"DEFAULT\": [-3, \"x\"]\x7d]," ++
    "\"FOREIGN_KEY\": \x7b\"n\": [\"u\", \"id\"], \"n\": [\"u\", \"id\"]\x7d," ++
    "\"n\": \x7b\"CHECK\": \"n > 0\"\x7d\x7d, \"t\": \x7b\x7d\x7d"

theorem ofJson?_repeated :
    repeated.Canonical ∧ repeated.Encodes repeatedJson ∧
      Json.ofText? repeatedText = some repeatedJson ∧
      ofJsonText? repeatedText = some repeated ∧ repeatedJson.Legible Json.maxDepth ∧
      ofJsonText? repeatedJson.text = some repeated := by
  have hx : Token.Plain (.default (.list [.integer (-3), .text "x"])) :=
    .default (.list (List.forall_mem_cons.2
      ⟨.integer _, List.forall_mem_singleton.2 (.text (by decide +kernel))⟩))
  have hc : repeated.Canonical := by
    refine List.forall_mem_cons.2 ⟨?_, List.forall_mem_singleton.2 fun _ h => ?_⟩
    · refine List.forall_mem_cons.2 ⟨⟨by decide, .many ?_⟩, List.forall_mem_singleton.2 ?_⟩
      · exact List.forall_mem_cons.2 ⟨.keyword _, List.forall_mem_singleton.2 hx⟩
      · exact ⟨by decide, .one (.check _) nofun⟩
    · exact absurd h List.not_mem_nil
  have hfirst : ColumnSpec.Encodes
      (.many [.keyword .integer, .default (.list [.integer (-3), .text "x"])])
      (.array [.string "int",
        .object [("DEFAULT", .array [.number (.integer (-3)), .string "x"])]]) :=
    .many (.cons (.keyword (by decide +kernel))
      (.cons (.default (.list (.cons (.integer (-3)) (.cons (.text "x") .nil)))) .nil))
  have h : repeated.Encodes repeatedJson := by
    refine ⟨_, rfl, .cons ⟨rfl, ?_⟩ (.cons ⟨rfl, .unkeyed .nil⟩ .nil)⟩
    exact @TableDef.Encodes.keyed [("n", _)] [("n", _)] [("n", _)] [("n", _)] _
      (.cons ⟨rfl, hfirst⟩ .nil) (.cons ⟨rfl, .one (.check "n > 0")⟩ .nil)
  have htext : Json.ofText? repeatedText = some repeatedJson := by cbv
  have hlegible : repeatedJson.Legible Json.maxDepth := by
    have hnumber := Json.numeral_integer (i := -3) (by decide) (by decide)
    simp only [repeatedJson, Json.maxDepth, Json.Legible, List.forall_mem_cons, hnumber,
      List.not_mem_nil, false_imp_iff, implies_true, and_true]
  obtain ⟨_, hread, _, hprinted⟩ := ofJson?_of_encodes hc h
  exact ⟨hc, h, htext, hread repeatedText htext, hlegible, hprinted hlegible⟩

end Template

end BoundSql
