import BoundSql.Proofs.Utf8
import BoundSql.Value.Cell

/-!
# Binding and reading

A value is bound as a cell and read back.  For texts this means that the bytes of a text decode to
the text again, although decoding takes any bytes: it cuts them into the encodings of characters and
what breaks off in between (`Utf8.Pieces`), which can be done in one way only, and reads a
replacement character for each of the latter.  `Cell.round_trip` is the main statement: a bound
value is read back as it is, a cell once read is stable, and exactly valid UTF-8 is read without
loss.
-/

namespace BoundSql

namespace Utf8

/-! ### Sequences that break off -/

/-- The bytes begin the encoding of a character. -/
def Begins (p : List UInt8) : Prop := ∃ c, p <+: String.utf8EncodeChar c

theorem Begins.mono {p q : List UInt8} (h : Begins q) (hp : p <+: q) : Begins p :=
  h.imp fun _ hq => hp.trans hq

/-- What stands for a sequence that breaks off in front of `rest`, or for a byte that starts none:
no more bytes than begin a character, and as many as do. -/
structure Broken (p rest : List UInt8) : Prop where
  ne_nil : p ≠ []
  begins : p.length = 1 ∨ Begins p
  /-- No character is encoded here. -/
  whole : ∀ c, ¬String.utf8EncodeChar c <+: p ++ rest
  /-- The next byte does not belong to it. -/
  longest : ∀ b ∈ rest.head?, ¬Begins (p ++ [b])

/-- What breaks off is determined by the bytes. -/
theorem Broken.eq {p q rest rest' : List UInt8} (hp : Broken p rest) (hq : Broken q rest')
    (h : p ++ rest = q ++ rest') : p = q := by
  have hle {p q rest rest' : List UInt8} (hp : Broken p rest) (hq : Broken q rest')
      (h : p ++ rest = q ++ rest') : q.length ≤ p.length := by
    by_contra hlt
    -- the next byte of the longer one would belong to the shorter one
    obtain ⟨t, rfl, rfl⟩ | ⟨t, rfl, rfl⟩ := List.append_eq_append_iff.1 h
    · cases t with
      | nil => simp at hlt
      | cons b t =>
        have hpos := List.length_pos_iff.2 hp.ne_nil
        have hbegins := hq.begins.resolve_left (by simp; omega)
        exact hp.longest b rfl (hbegins.mono ⟨t, by simp⟩)
    · simp at hlt
  exact (List.append_inj h (Nat.le_antisymm (hle hq hp h.symm) (hle hp hq h))).1

/-- Bytes cut into the encodings of characters and what breaks off in between. -/
inductive Pieces : List UInt8 → List (Option Char) → Prop where
  | nil : Pieces [] []
  | char (c : Char) {rest : List UInt8} {ps : List (Option Char)} (h : Pieces rest ps) :
    Pieces (String.utf8EncodeChar c ++ rest) (some c :: ps)
  | broken {p rest : List UInt8} {ps : List (Option Char)} (hp : Broken p rest)
    (h : Pieces rest ps) : Pieces (p ++ rest) (none :: ps)

/-! ### The beginnings of sequences -/

theorem begins_cons_iff {lead : UInt8} {bs : List UInt8} :
    Begins (lead :: bs) ↔ ∃ rs rs', Line lead (rs ++ rs') ∧ List.Forall₂ Within rs bs := by
  constructor
  · rintro ⟨c, t, hc⟩
    obtain ⟨lead', bs', ranges, hc', hline, h, -⟩ := exists_line c
    obtain ⟨rfl, rfl⟩ := List.cons.inj (hc.trans hc')
    have hfront := List.forall₂_take_append _ _ _ h
    refine ⟨ranges.take bs.length, ranges.drop bs.length, ?_, hfront⟩
    rwa [List.take_append_drop]
  · rintro ⟨rs, rs', hline, h⟩
    -- the bytes that are missing may be the least of their ranges
    have hrest : List.Forall₂ Within rs' (rs'.map Prod.fst) :=
      List.forall₂_map_right_iff.2 (List.forall₂_same.2 fun r hr =>
        ⟨UInt8.le_refl _, hline.le r (List.mem_append_right _ hr)⟩)
    exact ⟨_, rs'.map Prod.fst,
      (utf8EncodeChar_codePoint hline (List.rel_append h hrest)).symm⟩

/-! ### Reading one sequence -/

theorem matching_append {rs rs' : List (UInt8 × UInt8)} {bs rest : List UInt8}
    (h : List.Forall₂ Within rs bs) :
    matching (rs ++ rs') (bs ++ rest) = bs.length + matching rs' rest := by
  induction h with
  | nil => exact (Nat.zero_add _).symm
  | cons hb _ ih =>
    obtain ⟨hlo, hhi⟩ := hb
    simp only [List.cons_append, matching, hlo, hhi, decide_true, Bool.and_self, if_true, ih,
      List.length_cons]
    omega

theorem matching_eq_zero {rs : List (UInt8 × UInt8)} {rest : List UInt8}
    (h : ∀ r ∈ rs.head?, ∀ b ∈ rest.head?, ¬Within r b) : matching rs rest = 0 := by
  cases rs with
  | nil => rfl
  | cons r rs =>
    cases rest with
    | nil => rfl
    | cons b rest =>
      have hb : ¬(r.1 ≤ b && b ≤ r.2) = true := by
        have := h r rfl b rfl
        simpa only [Within, Bool.and_eq_true, decide_eq_true_eq] using this
      exact if_neg hb

/-- As many bytes as match are in their ranges, and the next one is not. -/
theorem exists_matching (ranges : List (UInt8 × UInt8)) (rest : List UInt8) :
    ∃ rs rs' bs rest', ranges = rs ++ rs' ∧ rest = bs ++ rest' ∧
      List.Forall₂ Within rs bs ∧ ∀ r ∈ rs'.head?, ∀ b ∈ rest'.head?, ¬Within r b := by
  induction ranges generalizing rest with
  | nil => exact ⟨[], [], [], rest, rfl, rfl, .nil, nofun⟩
  | cons r ranges ih =>
    cases rest with
    | nil => exact ⟨[], r :: ranges, [], [], rfl, rfl, .nil, fun _ _ => nofun⟩
    | cons b rest =>
      by_cases hb : Within r b
      · obtain ⟨rs, rs', bs, rest', rfl, rfl, h, hnext⟩ := ih rest
        exact ⟨r :: rs, rs', b :: bs, rest', rfl, rfl, .cons hb h, hnext⟩
      · refine ⟨[], r :: ranges, [], b :: rest, rfl, rfl, .nil, ?_⟩
        rintro _ ⟨⟩ _ ⟨⟩
        exact hb

theorem first_of_line {lead : UInt8} {ranges : List (UInt8 × UInt8)} {bs : List UInt8}
    (hline : Line lead ranges) (h : List.Forall₂ Within ranges bs) (rest : List UInt8) :
    first lead (bs ++ rest) = (Char.ofNat (codePoint lead bs), bs.length) := by
  have hn : matching ranges (bs ++ rest) = bs.length := by
    have hall : matching (ranges ++ []) (bs ++ rest) = bs.length + matching [] rest :=
      matching_append h
    rwa [List.append_nil] at hall
  rw [first, hline.followers_eq]
  simp only [hn, if_pos h.length_eq.symm, List.take_left, codePoint]

theorem first_of_broken {lead : UInt8} {bs rest : List UInt8} (h : Broken (lead :: bs) rest) :
    first lead (bs ++ rest) = (replacement, bs.length) := by
  have hbegins : bs = [] ∨ Begins (lead :: bs) :=
    h.begins.imp_left fun hlength => List.length_eq_zero_iff.1 (Nat.succ.inj hlength)
  cases hlead : followers lead with
  | none =>
    -- such a byte begins nothing and stands alone
    obtain rfl : bs = [] := hbegins.resolve_right fun hb => by
      obtain ⟨_, _, hline, -⟩ := begins_cons_iff.1 hb
      cases hlead.symm.trans hline.followers_eq
    rw [first, hlead]
    rfl
  | some ranges =>
    have hline := line_of_followers hlead
    obtain ⟨rs, rs', rfl, hbs⟩ :
        ∃ rs rs', ranges = rs ++ rs' ∧ List.Forall₂ Within rs bs := by
      rcases hbegins with rfl | hb
      · exact ⟨[], ranges, rfl, .nil⟩
      · obtain ⟨rs, rs', hline', hbs⟩ := begins_cons_iff.1 hb
        exact ⟨rs, rs', Option.some.inj (hlead.symm.trans hline'.followers_eq), hbs⟩
    have hnext : matching rs' rest = 0 := by
      refine matching_eq_zero fun r hr b hb hwithin => h.longest b hb ?_
      obtain ⟨rs', rfl⟩ := List.head?_eq_some_iff.1 hr
      rw [List.append_cons] at hline
      exact begins_cons_iff.2 ⟨rs ++ [r], rs', hline, List.rel_append hbs (.cons hwithin .nil)⟩
    have hshort : bs.length ≠ (rs ++ rs').length := by
      intro hlength
      obtain rfl : rs' = [] := by
        rw [List.length_append, ← hbs.length_eq] at hlength
        exact List.length_eq_zero_iff.1 (by omega)
      rw [List.append_nil] at hline
      refine h.whole (Char.ofNat (codePoint lead bs)) ?_
      rw [utf8EncodeChar_codePoint hline hbs]
      exact List.prefix_append _ _
    rw [first, hlead]
    simp only [matching_append hbs, hnext, Nat.add_zero, if_neg hshort]

theorem decodeAfter_length (bs rest : List UInt8) :
    decodeAfter bs.length (bs ++ rest) = decode rest := by
  induction bs with
  | nil => rfl
  | cons b bs ih => exact ih

theorem decode_cons {lead : UInt8} {bs rest : List UInt8} {c : Char}
    (h : first lead (bs ++ rest) = (c, bs.length)) :
    decode (lead :: (bs ++ rest)) = c :: decode rest := by
  rw [decode, decodeAfter, h, decodeAfter_length]

theorem decode_char (c : Char) (rest : List UInt8) :
    decode (String.utf8EncodeChar c ++ rest) = c :: decode rest := by
  obtain ⟨lead, bs, ranges, hc, hline, h, hn⟩ := exists_line c
  have hfirst := first_of_line hline h rest
  rw [hn, Char.ofNat_toNat] at hfirst
  rw [hc, List.cons_append, decode_cons hfirst]

theorem decode_broken {p rest : List UInt8} (h : Broken p rest) :
    decode (p ++ rest) = replacement :: decode rest := by
  cases p with
  | nil => exact absurd rfl h.ne_nil
  | cons lead bs => exact decode_cons (first_of_broken h)

/-! ### All bytes -/

/-- Bytes that encode no character here begin with a sequence that breaks off. -/
theorem exists_broken {lead : UInt8} {rest : List UInt8}
    (h : ∀ c, ¬String.utf8EncodeChar c <+: lead :: rest) :
    ∃ bs rest', rest = bs ++ rest' ∧ Broken (lead :: bs) rest' := by
  cases hlead : followers lead with
  | none =>
    refine ⟨[], rest, rfl, List.cons_ne_nil lead [], .inl rfl, h, fun b _ hb => ?_⟩
    obtain ⟨_, _, hline, -⟩ := begins_cons_iff.1 hb
    cases hlead.symm.trans hline.followers_eq
  | some ranges =>
    have hline := line_of_followers hlead
    obtain ⟨rs, rs', bs, rest', rfl, rfl, hbs, hnext⟩ := exists_matching ranges rest
    refine ⟨bs, rest', rfl, List.cons_ne_nil lead bs, .inr ?_, h, fun b hb hbegins => ?_⟩
    · exact begins_cons_iff.2 ⟨rs, rs', hline, hbs⟩
    · -- a byte that belongs to it would lie in the next range
      obtain ⟨ts, ts', hline', hts⟩ := begins_cons_iff.1 hbegins
      have hfront := List.forall₂_take_append _ _ _ hts
      obtain ⟨r, us, hwithin, -, hlast⟩ :=
        List.forall₂_cons_right_iff.1 (List.forall₂_drop_append _ _ _ hts)
      have hranges := Option.some.inj (hlead.symm.trans hline'.followers_eq)
      rw [← List.take_append_drop bs.length ts, hlast, List.append_assoc] at hranges
      obtain ⟨-, rfl⟩ := List.append_inj hranges (hbs.length_eq.trans hfront.length_eq.symm)
      exact hnext r rfl b hb hwithin

theorem exists_pieces (bytes : List UInt8) : ∃ ps, Pieces bytes ps := by
  induction hn : bytes.length using Nat.strongRecOn generalizing bytes with
  | ind n ih =>
    cases bytes with
    | nil => exact ⟨[], .nil⟩
    | cons lead rest =>
      by_cases hc : ∃ c, String.utf8EncodeChar c <+: lead :: rest
      · obtain ⟨c, rest', hc⟩ := hc
        have hpos := List.length_pos_iff.2 (@String.utf8EncodeChar_ne_nil c)
        have hlength := congrArg List.length hc
        rw [List.length_append] at hlength
        obtain ⟨ps, hps⟩ := ih rest'.length (by omega) rest' rfl
        exact ⟨some c :: ps, hc ▸ hps.char c⟩
      · obtain ⟨bs, rest', rfl, hbroken⟩ := exists_broken (not_exists.1 hc)
        obtain ⟨ps, hps⟩ := ih rest'.length (by simp at hn; omega) rest' rfl
        exact ⟨none :: ps, .broken hbroken hps⟩

/-- There is only one way to cut bytes. -/
theorem Pieces.unique {bytes : List UInt8} {ps qs : List (Option Char)} (hp : Pieces bytes ps)
    (hq : Pieces bytes qs) : ps = qs := by
  induction hp generalizing qs with
  | nil =>
    generalize hbytes : ([] : List UInt8) = bytes at hq
    cases hq with
    | nil => rfl
    | char c _ =>
      exact absurd (List.append_eq_nil_iff.1 hbytes.symm).1 (String.utf8EncodeChar_ne_nil)
    | broken hp _ => exact absurd (List.append_eq_nil_iff.1 hbytes.symm).1 hp.ne_nil
  | @char c rest ps _ ih =>
    generalize hbytes : String.utf8EncodeChar c ++ rest = bytes at hq
    cases hq with
    | nil => exact absurd (List.append_eq_nil_iff.1 hbytes).1 (String.utf8EncodeChar_ne_nil)
    | @char c' rest' qs h =>
      have hdecode := congrArg decode hbytes
      rw [decode_char, decode_char] at hdecode
      obtain ⟨rfl, -⟩ := List.cons.inj hdecode
      obtain rfl := List.append_cancel_left hbytes
      rw [ih h]
    | broken hp _ => exact absurd (hbytes ▸ List.prefix_append _ _) (hp.whole c)
  | @broken p rest ps hp _ ih =>
    generalize hbytes : p ++ rest = bytes at hq
    cases hq with
    | nil => exact absurd (List.append_eq_nil_iff.1 hbytes).1 hp.ne_nil
    | char c _ => exact absurd (hbytes ▸ List.prefix_append _ _) (hp.whole c)
    | @broken q rest' qs hq h =>
      obtain rfl := hp.eq hq hbytes
      obtain rfl := List.append_cancel_left hbytes
      rw [ih h]

theorem decode_eq_of_pieces {bytes : List UInt8} {ps : List (Option Char)} (h : Pieces bytes ps) :
    decode bytes = ps.map (·.getD replacement) := by
  induction h with
  | nil => rfl
  | char c _ ih => rw [decode_char, ih, List.map_cons, Option.getD_some]
  | broken hp _ ih => rw [decode_broken hp, ih, List.map_cons, Option.getD_none]

/-! ### Valid bytes -/

/-- **What is encoded is decoded.** -/
theorem decode_encode (s : List Char) : decode (encode s) = s := by
  induction s with
  | nil => rfl
  | cons c s ih => rw [encode_cons, decode_char, ih]

/-- In the encoding of a text nothing breaks off. -/
theorem pieces_encode (s : List Char) : Pieces (encode s) (s.map some) := by
  induction s with
  | nil => exact .nil
  | cons c s ih =>
    rw [encode_cons]
    exact ih.char c

theorem Pieces.eq_encode {bytes : List UInt8} {ps : List (Option Char)} (h : Pieces bytes ps)
    (hnone : none ∉ ps) : bytes = encode (decode bytes) := by
  induction h with
  | nil => rfl
  | char c _ ih =>
    rw [decode_char, encode_cons, ← ih (List.not_mem_of_not_mem_cons hnone)]
  | broken _ _ _ => exact absurd List.mem_cons_self hnone

theorem isValidUTF8_iff {bytes : List UInt8} :
    bytes.toByteArray.IsValidUTF8 ↔ ∃ s, bytes = encode s := by
  constructor
  · rintro ⟨s, hs⟩
    exact ⟨s, List.toByteArray_inj.1 hs⟩
  · rintro ⟨s, rfl⟩
    exact ⟨s, rfl⟩

/-- **Valid bytes are those that decoding and encoding give back.** -/
theorem encode_decode_iff {bytes : List UInt8} :
    encode (decode bytes) = bytes ↔ bytes.toByteArray.IsValidUTF8 := by
  rw [isValidUTF8_iff]
  constructor
  · intro h
    exact ⟨decode bytes, h.symm⟩
  · rintro ⟨s, rfl⟩
    rw [decode_encode]

/-- Nothing breaks off in valid bytes, and only in them. -/
theorem Pieces.encode_decode_iff {bytes : List UInt8} {ps : List (Option Char)}
    (h : Pieces bytes ps) : encode (decode bytes) = bytes ↔ none ∉ ps := by
  constructor
  · intro hbytes
    have hps := h.unique (hbytes ▸ pieces_encode (decode bytes))
    simp [hps]
  · intro hnone
    exact (h.eq_encode hnone).symm

end Utf8

/-! ### Cells -/

namespace Cell

/-- What binding and reading do to values and cells. -/
structure RoundTrip : Prop where
  /-- A bound value is read back, with its class and all of its text. -/
  value : ∀ v : Value, Value.ofCell v.toCell = v
  /-- The bytes of a bound text are the encodings of its characters, and nothing breaks off. -/
  whole : ∀ (s : String) (ps : List (Option Char)),
    Utf8.Pieces (Utf8.encode s.toList) ps ↔ ps = s.toList.map some
  /-- Any bytes can be cut, in one way. -/
  cut : ∀ bytes, ∃! ps, Utf8.Pieces bytes ps
  /-- Each character is read, and a replacement for each sequence that breaks off. -/
  text : ∀ bytes ps, Utf8.Pieces bytes ps →
    Value.ofCell (.text bytes) = .text (String.ofList (ps.map (·.getD Utf8.replacement)))
  /-- Binding what was read and reading it again changes nothing. -/
  stable : ∀ c : Cell, Value.ofCell (Value.ofCell c).toCell = Value.ofCell c
  /-- Valid UTF-8 is read without loss, and nothing else. -/
  lossless : ∀ bytes, (Value.ofCell (.text bytes)).toCell = .text bytes ↔
    bytes.toByteArray.IsValidUTF8
  /-- There is a loss exactly if there is a replacement. -/
  replaced : ∀ bytes ps, Utf8.Pieces bytes ps →
    ((Value.ofCell (.text bytes)).toCell = .text bytes ↔ none ∉ ps)
  /-- Cells of the other classes are never changed. -/
  others : ∀ c : Cell, (∀ bytes, c ≠ .text bytes) → (Value.ofCell c).toCell = c

theorem ofCell_toCell (v : Value) : Value.ofCell v.toCell = v := by
  cases v with
  | text s => rw [Value.toCell, Value.ofCell, Utf8.decode_encode, String.ofList_toList]
  | _ => rfl

theorem toCell_ofCell_text (bytes : List UInt8) :
    (Value.ofCell (.text bytes)).toCell = .text (Utf8.encode (Utf8.decode bytes)) := by
  rw [Value.ofCell, Value.toCell, String.toList_ofList]

/-- **Binding and reading lose nothing but what is not UTF-8.** -/
theorem round_trip : RoundTrip where
  value := ofCell_toCell
  whole s ps := by
    constructor
    · intro h
      exact h.unique (Utf8.pieces_encode s.toList)
    · rintro rfl
      exact Utf8.pieces_encode s.toList
  cut bytes := by
    obtain ⟨ps, h⟩ := Utf8.exists_pieces bytes
    exact ⟨ps, h, fun qs hq => hq.unique h⟩
  text bytes ps h := by rw [Value.ofCell, Utf8.decode_eq_of_pieces h]
  stable c := ofCell_toCell (Value.ofCell c)
  lossless bytes := by
    rw [toCell_ofCell_text, Cell.text.injEq]
    exact Utf8.encode_decode_iff
  replaced bytes ps h := by
    rw [toCell_ofCell_text, Cell.text.injEq]
    exact h.encode_decode_iff
  others c hc := by
    cases c with
    | text bytes => exact absurd rfl (hc bytes)
    | _ => rfl

-- two bytes of four, in front of a letter, are one sequence that breaks off
example : Value.ofCell (.text [0x61, 0xf0, 0x9f, 0x62]) = .text "a\ufffdb" := by decide +kernel

end Cell

end BoundSql
