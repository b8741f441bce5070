import BoundSql.Proofs.Json.Reals
import BoundSql.Value.Json

/-!
# Rows as documents

A row is written without tags, so that each value has to be told from the others by what is written
for it.  `Value.Untagged` says which documents are read as which values, and `Value.Rereads` as what
value the text of a value is read: any but a floating-point number as itself, and a floating-point
number as the one that its numeral is read as.  If a numeral is refused, so is the whole row.
`Row.rereading` is the main statement.
-/

namespace BoundSql

/-- Either all elements are related to something, or there is a first one that is not. -/
theorem exists_forall₂_or {α β : Type} (R : α → β → Prop) (as : List α) :
    (∃ bs, List.Forall₂ R as bs) ∨
      ∃ pre a post bs, as = pre ++ a :: post ∧ List.Forall₂ R pre bs ∧ ∀ b, ¬R a b := by
  induction as with
  | nil => exact .inl ⟨[], .nil⟩
  | cons a as ih =>
    by_cases ha : ∃ b, R a b
    · obtain ⟨b, hb⟩ := ha
      rcases ih with ⟨bs, h⟩ | ⟨pre, a', post, bs, rfl, h, hnot⟩
      · exact .inl ⟨b :: bs, .cons hb h⟩
      · exact .inr ⟨a :: pre, a', post, b :: bs, rfl, .cons hb h, hnot⟩
    · exact .inr ⟨[], a, as, [], rfl, .nil, not_exists.1 ha⟩

namespace Json

open Reader (orElse_apply bind_apply char_self char_of_ne)

/-! ### Items that are refused -/

/-- No value can be read from the text of an item. -/
structure Refused (depth : Nat) (s : List Char) : Prop where
  read : ∀ rest, Ended rest → value depth (s ++ rest) = none
  head : ∃ c s', s = c :: s' ∧ isSpace c = false ∧ c ≠ ']'

/-- The texts of items with commas in between. -/
def joined : List (List Char) → List Char
  | [] => []
  | t :: ts => t ++ ts.flatMap fun t => ',' :: t

theorem compact_array (items : List Json) :
    compact (.array items) = '[' :: (joined (items.map compact) ++ [']']) := by
  cases items with
  | nil => rfl
  | cons j rest => rw [compact, compactItems_eq_flatMap, List.map_cons, joined, List.flatMap_map]

theorem joined_append {pre post : List (List Char)} {t : List Char} (h : pre ≠ []) :
    joined (pre ++ t :: post) = joined pre ++ ',' :: joined (t :: post) := by
  cases pre with
  | nil => exact absurd rfl h
  | cons s pre => simp [joined]

theorem parts_joined {depth : Nat} {js : List Json} {ts : List (List Char)}
    (h : List.Forall₂ (Writes depth) js ts) : Parts (Writes depth) js (joined ts) := by
  cases h with
  | nil => exact .none blank_nil
  | cons ha h => exact parts_of_forall₂ (.cons ha h)

/-- What follows an item ends it. -/
theorem ended_joined (ts : List (List Char)) (s : List Char) :
    Ended ((ts.flatMap fun t => ',' :: t) ++ ']' :: s) := by
  intro c hc
  cases ts with
  | nil => exact Option.some.inj hc ▸ rfl
  | cons t ts => exact Option.some.inj hc ▸ rfl

/-- **An item that is refused** makes an array be refused. -/
theorem arrayOf_refused {depth : Nat} {js : List Json} {pre post : List (List Char)}
    {t : List Char} (hpre : List.Forall₂ (Writes depth) js pre) (ht : Refused depth t) :
    arrayOf (value depth) ('[' :: (joined (pre ++ t :: post) ++ [']'])) = none := by
  obtain ⟨c, t', rfl, hspace, hclose⟩ := ht.head
  let rest := (post.flatMap fun t => ',' :: t) ++ [']']
  have hitem : (c :: (t' ++ rest)).dropWhile isSpace = c :: (t' ++ rest) :=
    List.dropWhile_cons_of_neg (by simp [hspace])
  have hread : value depth (c :: (t' ++ rest)) = none := ht.read _ (ended_joined post [])
  rw [arrayOf_eq, bind_apply, char_self, Option.bind_some, bind_apply]
  by_cases hempty : pre = []
  · subst hempty
    have hparts := parts_of_none (p := value depth) (hitem.symm ▸ hread)
    rw [List.nil_append, joined, List.append_assoc, List.cons_append, hparts, hitem,
      Option.bind_some, bind_apply, char_of_ne hclose]
    rfl
  · have hjs : js ≠ [] := by
      rintro rfl
      exact hempty (List.forall₂_nil_left_iff.1 hpre)
    have hstop : next (value depth) (',' :: (c :: (t' ++ rest))) = none := by
      rw [next_comma, hitem, part_apply, hread]
      rfl
    have hparts := parts_stop (reads_value depth) (parts_joined hpre) hjs (.inl rfl) hstop
    rw [joined_append hempty, joined, List.append_assoc, List.cons_append, List.append_assoc,
      List.cons_append, hparts, Option.bind_some, bind_apply, char_of_ne (by decide)]
    rfl

/-- What begins as an array is read as nothing else. -/
theorem ofText?_of_arrayOf {depth : Nat} {s : List Char} (hdepth : maxDepth = depth + 1)
    (h : arrayOf (value depth) ('[' :: s) = none) : ofText? (String.ofList ('[' :: s)) = none := by
  have hscalar : scalar ('[' :: s) = none := rfl
  have hobject : objectOf (value depth) ('[' :: s) = none := rfl
  have hvalue : value maxDepth ('[' :: s) = none := by
    rw [hdepth, value, orElse_apply, orElse_apply, hscalar, h, hobject]
    rfl
  have hdocument : document ('[' :: s) = none := by
    rw [document, bind_apply]
    change ((value maxDepth ('[' :: s)).bind fun x => _) = none
    rw [hvalue]
    rfl
  rw [ofText?, Reader.whole, String.toList_ofList, hdocument]

/-- A text that begins as a number is refused if no number can be read from it. -/
theorem refused_of_numeral {c : Char} {s : List Char} (hc : c = '-' ∨ c.isDigit = true)
    (h : numeral (c :: s) = none) (depth : Nat) : Refused depth (c :: s) := by
  have hne {d : Char} (hd : d ≠ '-' ∧ d.isDigit = false) : c ≠ d := by
    rintro rfl
    rcases hc with rfl | hc
    · exact hd.1 rfl
    · cases hc.symm.trans hd.2
  have hscalar (rest : List Char) (hrest : Ended rest) : scalar (c :: (s ++ rest)) = none := by
    have hnumeral := local_numeral (c :: s) rest hrest
    rw [h, List.cons_append] at hnumeral
    rw [scalar_apply, word_of_ne (hne (by decide)) (hne (by decide)) (hne (by decide)),
      quoted_of_ne (hne (by decide)), hnumeral]
    rfl
  refine ⟨fun rest hrest => ?_, c, s, rfl, ?_, hne (by decide)⟩
  · cases depth with
    | zero => exact hscalar rest hrest
    | succ depth =>
      have harray : arrayOf (value depth) (c :: (s ++ rest)) = none := by
        rw [arrayOf_eq, bind_apply, char_of_ne (hne (by decide))]
        rfl
      have hobject : objectOf (value depth) (c :: (s ++ rest)) = none := by
        rw [objectOf_eq, bind_apply, char_of_ne (hne (by decide))]
        rfl
      rw [value, List.cons_append, orElse_apply, orElse_apply, hscalar rest hrest, harray, hobject]
      rfl
  · have hspaces : c ≠ ' ' ∧ c ≠ '\t' ∧ c ≠ '\n' ∧ c ≠ '\r' :=
      ⟨hne (by decide), hne (by decide), hne (by decide), hne (by decide)⟩
    simp [isSpace, hspaces]

end Json

namespace Value

/-! ### Documents of values -/

/-- The value that a document is, if it has no tag. -/
inductive Untagged : Json → Value → Prop where
  | null : Untagged .null .null
  | integer (i : Int64) : Untagged (.number (.integer i.toInt)) (.integer i)
  | real {n : Json.Number} (h : ∀ i : Int64, n ≠ .integer i.toInt) :
    Untagged (.number n) (.real n.toReal)
  | text (s : String) : Untagged (.string s) (.text s)
  | blob (bytes : List UInt8) :
    Untagged (.array (bytes.map fun b => .number (.integer b.toNat))) (.blob bytes)

/-- The document is some value: null, a number, a string, or an array of integers that are bytes. -/
inductive Accepted : Json → Prop where
  | null : Accepted .null
  | number (n : Json.Number) : Accepted (.number n)
  | string (s : String) : Accepted (.string s)
  | array {items : List Json}
    (h : ∀ j ∈ items, ∃ i : Int, j = .number (.integer i) ∧ 0 ≤ i ∧ i ≤ 255) :
    Accepted (.array items)

theorem int64?_eq_some_iff {n : Json.Number} {i : Int64} :
    n.int64? = some i ↔ n = .integer i.toInt := by
  cases n with
  | real x => simp [Json.Number.int64?]
  | integer k =>
    have hmax : Int64.maxValue.toInt = 2 ^ 63 - 1 := rfl
    rw [Json.Number.int64?, Json.Number.integer.injEq]
    constructor
    · intro h
      split_ifs at h with hk
      rw [← Option.some.inj h]
      exact (Int64.toInt_ofInt_of_le hk.1 (by omega)).symm
    · rintro rfl
      rw [if_pos ⟨i.minValue_le_toInt, i.toInt_le⟩, Int64.ofInt_toInt]

theorem byteOfJson?_eq_some_iff {j : Json} {b : UInt8} :
    byteOfJson? j = some b ↔ j = .number (.integer b.toNat) := by
  constructor
  · intro h
    unfold byteOfJson? at h
    split at h
    · rename_i i
      split_ifs at h with hi
      have hlt : i.toNat < 256 := by omega
      rw [← Option.some.inj h, UInt8.toNat_ofNat_of_lt' hlt, Int.toNat_of_nonneg hi.1]
    · cases h
  · rintro rfl
    have hb := b.toNat_lt
    rw [byteOfJson?, if_pos ⟨Int.natCast_nonneg _, by omega⟩]
    simp

theorem mapM_byteOfJson?_eq_some_iff {items : List Json} {bytes : List UInt8} :
    items.mapM byteOfJson? = some bytes ↔
      items = bytes.map fun b => .number (.integer b.toNat) := by
  simp only [mapM_eq_some_iff, byteOfJson?_eq_some_iff]
  rw [← List.forall₂_eq_eq_eq, List.forall₂_map_right_iff]

theorem ofUntagged?_eq_some_iff {j : Json} {v : Value} :
    ofUntagged? j = some v ↔ Untagged j v := by
  constructor
  · intro h
    cases j with
    | null => exact Option.some.inj h ▸ .null
    | boolean b => cases h
    | number n =>
      obtain rfl : ofNumber n = v := Option.some.inj h
      rw [ofNumber]
      cases hn : n.int64? with
      | some i =>
        rw [int64?_eq_some_iff.1 hn]
        exact .integer i
      | none =>
        refine .real fun i hi => ?_
        cases (int64?_eq_some_iff.2 hi).symm.trans hn
    | string s => exact Option.some.inj h ▸ .text s
    | array items =>
      obtain ⟨bytes, hbytes, rfl⟩ := Option.map_eq_some_iff.1 h
      rw [mapM_byteOfJson?_eq_some_iff.1 hbytes]
      exact .blob bytes
    | object ms => cases h
  · intro h
    cases h with
    | null => rfl
    | integer i => rw [ofUntagged?, ofNumber, int64?_eq_some_iff.2 rfl]
    | @real n h =>
      have hn : n.int64? = none := by
        by_contra hne
        obtain ⟨i, hi⟩ := Option.ne_none_iff_exists'.1 hne
        exact h i (int64?_eq_some_iff.1 hi)
      rw [ofUntagged?, ofNumber, hn]
    | text s => rfl
    | blob bytes => rw [ofUntagged?, mapM_byteOfJson?_eq_some_iff.2 rfl, Option.map_some]

/-- The documents that are values are the accepted ones. -/
theorem accepted_iff {j : Json} : Accepted j ↔ ∃ v, Untagged j v := by
  constructor
  · intro h
    cases h with
    | null => exact ⟨_, .null⟩
    | number n => exact ⟨_, ofUntagged?_eq_some_iff.1 rfl⟩
    | string s => exact ⟨_, .text s⟩
    | @array items h =>
      obtain ⟨bytes, hbytes⟩ : ∃ bytes : List UInt8,
          items = bytes.map fun b => .number (.integer b.toNat) := by
        induction items with
        | nil => exact ⟨[], rfl⟩
        | cons j items ih =>
          obtain ⟨⟨i, rfl, hlo, hhi⟩, hitems⟩ := List.forall_mem_cons.1 h
          obtain ⟨bytes, rfl⟩ := ih hitems
          have hlt : i.toNat < 256 := by omega
          refine ⟨UInt8.ofNat i.toNat :: bytes, ?_⟩
          rw [List.map_cons, UInt8.toNat_ofNat_of_lt' hlt, Int.toNat_of_nonneg hlo]
      exact ⟨.blob bytes, hbytes ▸ .blob bytes⟩
  · rintro ⟨v, h⟩
    cases h with
    | null => exact .null
    | integer i => exact .number _
    | real h => exact .number _
    | text s => exact .string s
    | blob bytes =>
      refine .array fun j hj => ?_
      obtain ⟨b, -, rfl⟩ := List.mem_map.1 hj
      have hb := b.toNat_lt
      exact ⟨_, rfl, Int.natCast_nonneg _, by omega⟩

/-- A value is read from its document, unless it is a number that is not finite. -/
theorem untagged_toJson_iff {v : Value} :
    Untagged v.toJson v ↔ ∀ x, v = .real x → x.isFinite = true := by
  cases v with
  | null => simpa using .null
  | integer i => simpa using .integer i
  | real x =>
    by_cases hx : x.isFinite = true
    · rw [toJson, if_pos hx]
      simpa [hx] using .real (n := .real x) nofun
    · rw [toJson, if_neg hx]
      simp only [real.injEq, forall_eq', hx]
      exact ⟨nofun, nofun⟩
  | text s => simpa using .text s
  | blob bytes => simpa using .blob bytes

/-! ### Texts of values -/

/-- The value that the text of a value is read as. -/
inductive Rereads : Value → Value → Prop where
  | real {x y : Binary64} (hx : x.isFinite = true)
    (h : Json.numeral (Json.Number.real x).text = some (.real y, [])) :
    Rereads (.real x) (.real y)
  | other {v : Value} (h : ∀ x, v ≠ .real x) : Rereads v v

theorem isFinite_of_real? {negative : Bool} {d : Decimal} {n : Json.Number}
    (h : Json.real? negative d = some n) : ∃ y, n = .real y ∧ y.isFinite = true := by
  unfold Json.real? at h
  dsimp only at h
  split_ifs at h with hsmall
  refine ⟨_, (Option.some.inj h).symm, ?_⟩
  rw [Binary64.isFinite, Binary64.magnitude_ofMagnitude (hsmall.trans (by decide))]
  simpa using hsmall

/-- The text of a finite number is read as a finite number, or not at all. -/
theorem numeral_real_cases {x : Binary64} (hx : x.isFinite = true) :
    (∃ y, Json.numeral (Json.Number.real x).text = some (.real y, []) ∧ y.isFinite = true) ∨
      Json.numeral (Json.Number.real x).text = none := by
  obtain ⟨d, hd⟩ := Json.exists_numeral_real hx
  rw [hd]
  cases hreal : Json.real? x.isNegative d with
  | none => exact .inr rfl
  | some n =>
    obtain ⟨y, rfl, hy⟩ := isFinite_of_real? hreal
    exact .inl ⟨y, rfl, hy⟩

theorem isFinite_of_numeral {x y : Binary64} (hx : x.isFinite = true)
    (h : Json.numeral (Json.Number.real x).text = some (.real y, [])) : y.isFinite = true := by
  obtain ⟨z, hz, hfinite⟩ := (numeral_real_cases hx).resolve_right (by simp [h])
  obtain rfl : y = z := by simpa using h.symm.trans hz
  exact hfinite

/-- What is not a floating-point number is read back. -/
theorem legible_toJson {v : Value} (h : ∀ x, v ≠ .real x) (depth : Nat) :
    v.toJson.Legible (depth + 1) := by
  have hnumber (i : Int) (hlo : -0x8000000000000000 ≤ i) (hhi : i < 0x10000000000000000)
      (depth : Nat) : (Json.number (.integer i)).Legible depth := by
    rw [Json.Legible]
    exact Json.numeral_integer hlo hhi
  cases v with
  | null => simp [toJson, Json.Legible]
  | integer i =>
    have hlo : -0x8000000000000000 ≤ i.toInt := i.le_toInt
    have hhi := i.toInt_lt
    exact hnumber _ hlo (by omega) _
  | real x => exact absurd rfl (h x)
  | text s => simp [toJson, Json.Legible]
  | blob bytes =>
    rw [toJson, Json.Legible]
    intro j hj
    obtain ⟨b, -, rfl⟩ := List.mem_map.1 hj
    have hb := b.toNat_lt
    exact hnumber _ (by omega) (by omega) _

/-- The text of a value writes the document of the value that it is read as. -/
theorem Rereads.writes {v w : Value} (h : Rereads v w) (depth : Nat) :
    Json.Writes (depth + 1) w.toJson (Json.compact v.toJson) := by
  cases h with
  | @real x y hx h =>
    rw [toJson, toJson, if_pos hx, if_pos (isFinite_of_numeral hx h), Json.compact]
    exact Json.writes_of_scalar (Json.scalar_numeral h)
  | other h => exact Json.writes_compact (legible_toJson h depth)

theorem Rereads.finite {v w : Value} (h : Rereads v w) : ∀ y, w = .real y → y.isFinite = true := by
  rintro y rfl
  cases h with
  | real hx h => exact isFinite_of_numeral hx h
  | other h => exact absurd rfl (h y)

/-- The text of a value is refused if it is not read as any value. -/
theorem refused_of_not_rereads {v : Value} (hv : ∀ x, v = .real x → x.isFinite = true)
    (h : ∀ w, ¬Rereads v w) (depth : Nat) : Json.Refused depth (Json.compact v.toJson) := by
  cases v with
  | real x =>
    have hx := hv x rfl
    rw [toJson, if_pos hx, Json.compact]
    rcases numeral_real_cases hx with ⟨y, hy, -⟩ | hnone
    · exact absurd (.real hx hy) (h (.real y))
    · obtain ⟨c, s, hs, hc⟩ := Json.exists_head_real hx
      rw [hs] at hnone ⊢
      exact Json.refused_of_numeral hc hnone depth
  | _ => exact absurd (.other nofun) (h _)

end Value

namespace Row

/-- No number of the row is infinite or NaN. -/
def Finite (row : Row) : Prop := ∀ x, Value.real x ∈ row → x.isFinite = true

/-- The text of a row. -/
def text (row : Row) : String := (toJson row).text

/-- The row that a text writes. -/
def ofText? (s : String) : Option Row := (Json.ofText? s).bind ofJson?

/-! ### Documents of rows -/

theorem ofJson?_eq_some_iff {items : List Json} {row : Row} :
    ofJson? (.array items) = some row ↔ List.Forall₂ Value.Untagged items row := by
  rw [ofJson?, mapM_eq_some_iff]
  simp only [Value.ofUntagged?_eq_some_iff]

theorem ofJson?_toJson_iff {row : Row} : ofJson? (toJson row) = some row ↔ Finite row := by
  rw [toJson, ofJson?_eq_some_iff, List.forall₂_map_left_iff, List.forall₂_same]
  simp only [Value.untagged_toJson_iff]
  constructor
  · intro h x hx
    exact h _ hx x rfl
  · rintro h v hv x rfl
    exact h x hv

/-! ### Texts of rows -/

theorem compact_toJson (row : Row) : Json.compact (toJson row) =
    '[' :: (Json.joined (row.map fun v => Json.compact v.toJson) ++ [']']) := by
  rw [toJson, Json.compact_array, List.map_map]
  rfl

theorem forall₂_writes {row row' : Row} (h : List.Forall₂ Value.Rereads row row') (depth : Nat) :
    List.Forall₂ (Json.Writes (depth + 1)) (row'.map Value.toJson)
      (row.map fun v => Json.compact v.toJson) := by
  rw [List.forall₂_map_left_iff, List.forall₂_map_right_iff]
  exact (h.imp fun _ _ h => h.writes depth).flip

/-- If all values can be read again, the row of what they are read as is read. -/
theorem ofText?_of_rereads {row row' : Row} (h : List.Forall₂ Value.Rereads row row') :
    ofText? (text row) = some row' := by
  have hread : Json.ofText? (text row) = some (toJson row') := by
    refine Json.ofText?_of_textOf ⟨[], Json.compact (toJson row), [], ?_, Json.blank_nil,
      .inr (.inl ⟨_, _, rfl, compact_toJson row, Json.parts_joined (forall₂_writes h _)⟩),
      Json.blank_nil⟩
    rw [text, Json.text, List.append_nil, List.nil_append]
  have hall : List.Forall₂ (fun w v => (∀ y, w = .real y → y.isFinite = true) ∧ Value.Rereads v w)
      row' row := h.flip.imp fun w v h => ⟨h.finite, h⟩
  have hfinite : Finite row' := fun y hy => ((List.forall₂_and_left _ _).1 hall).1 _ hy y rfl
  rw [ofText?, hread, Option.bind_some, ofJson?_toJson_iff.2 hfinite]

/-- **The text of a row is read value by value**, or refused. -/
theorem ofText?_text_iff {row row' : Row} (hrow : Finite row) :
    ofText? (text row) = some row' ↔ List.Forall₂ Value.Rereads row row' := by
  refine ⟨fun h => ?_, ofText?_of_rereads⟩
  rcases exists_forall₂_or Value.Rereads row with
    ⟨row'', hrow''⟩ | ⟨pre, v, post, vs, rfl, hpre, hv⟩
  · obtain rfl : row' = row'' := Option.some.inj (h.symm.trans (ofText?_of_rereads hrow''))
    exact hrow''
  · have hfinite : ∀ x, v = .real x → x.isFinite = true := by
      rintro x rfl
      exact hrow x (by simp)
    have hnone : Json.ofText? (text (pre ++ v :: post)) = none := by
      rw [text, Json.text, compact_toJson, List.map_append, List.map_cons]
      refine Json.ofText?_of_arrayOf rfl ?_
      exact Json.arrayOf_refused (forall₂_writes hpre _) (Value.refused_of_not_rereads hfinite hv _)
    rw [ofText?, hnone] at h
    cases h

/-- What reading does to the documents and to the texts of rows. -/
structure Rereading : Prop where
  /-- The document of a row is read as the row, if and only if all its numbers are finite. -/
  documents : ∀ row, ofJson? (toJson row) = some row ↔ Finite row
  /-- The text of a finite row is read as the row, if and only if the numeral of each of its
  floating-point numbers is read as the number. -/
  texts : ∀ row, Finite row → (ofText? (text row) = some row ↔
    ∀ x, Value.real x ∈ row → Json.numeral (Json.Number.real x).text = some (.real x, []))
  /-- If it is read as any row, then only floating-point numbers differ, and are such numbers
  again. -/
  classes : ∀ row row', Finite row → ofText? (text row) = some row' →
    List.Forall₂ (fun v w => v = w ∨ ∃ x y, v = .real x ∧ w = .real y) row row'
  /-- An array is read as a row item by item. -/
  reads : ∀ items row, ofJson? (.array items) = some row ↔ List.Forall₂ Value.Untagged items row
  /-- An array is a row if and only if all its items are values. -/
  accepted : ∀ items, (∃ row, ofJson? (.array items) = some row) ↔ ∀ j ∈ items, Value.Accepted j
  /-- Nothing but an array is a row. -/
  arrays : ∀ j row, ofJson? j = some row → ∃ items, j = .array items

/-- **A row is read back from what is written for it**, and rows are read from nothing but arrays of
values. -/
theorem rereading : Rereading where
  documents row := ofJson?_toJson_iff
  texts row hrow := by
    rw [ofText?_text_iff hrow, List.forall₂_same]
    constructor
    · intro h x hx
      cases h _ hx with
      | real _ h => exact h
      | other h => exact absurd rfl (h x)
    · intro h v hv
      cases v with
      | real x => exact .real (hrow x hv) (h x hv)
      | _ => exact .other nofun
  classes row row' hrow h := by
    refine ((ofText?_text_iff hrow).1 h).imp fun v w h => ?_
    cases h with
    | real _ _ => exact .inr ⟨_, _, rfl, rfl⟩
    | other _ => exact .inl rfl
  reads items row := ofJson?_eq_some_iff
  accepted items := by
    simp only [ofJson?_eq_some_iff, Value.accepted_iff]
    constructor
    · rintro ⟨row, h⟩
      have hall : List.Forall₂ (fun j v => (∃ v, Value.Untagged j v) ∧ Value.Untagged j v)
          items row := h.imp fun j v h => ⟨⟨v, h⟩, h⟩
      exact ((List.forall₂_and_left _ _).1 hall).1
    · intro h
      rcases exists_forall₂_or Value.Untagged items with hrow | ⟨pre, j, post, vs, rfl, -, hj⟩
      · exact hrow
      · obtain ⟨v, hv⟩ := h j (by simp)
        exact absurd hv (hj v)
  arrays j row h := by
    cases j with
    | array items => exact ⟨items, rfl⟩
    | _ => cases h

-- all five classes are told apart
example : let row : Row := [.integer 1, .real ⟨0x3ff0000000000000⟩, .text "1", .blob [1], .null]
    text row = "[1,1.0,\"1\",[1],null]" ∧ ofText? (text row) = some row := by
  decide +kernel

end Row

end BoundSql
