import BoundSql.Proofs.Toml.Strings
import BoundSql.Toml.Printer
import BoundSql.Toml.Reader

/-!
# Documents of entries

The simplest documents give values to keys, an entry on each line: no headers, no dots, no comments.
`Toml.ofText?_entries` says that such a document has these members in this order, if no key is given
a value twice.
-/

namespace BoundSql

namespace Toml

open Reader (orElse_apply map_apply bind_apply char_self char_of_ne exactly_of_ne optional_of_none
  takeWhile1_append many_of_none)

/-! ### Values -/

/-- The text writes a value that needs no brackets: a string or a truth value. -/
inductive WritesScalar : Toml → List Char → Prop where
  | text {s : String} {t : List Char} (h : Writes s t) : WritesScalar (.text s) t
  | boolean (b : Bool) : WritesScalar (.boolean b) (if b then "true" else "false").toList

theorem exists_head_of_writes {s : String} {t : List Char} (h : Writes s t) :
    ∃ c t', t = c :: t' ∧ (c = '"' ∨ c = '\x27') := by
  cases h with
  | basic => exact ⟨_, _, rfl, .inl rfl⟩
  | literal => exact ⟨_, _, rfl, .inr rfl⟩
  | multilineBasic h =>
    obtain ⟨t', rfl⟩ := h.exists_cons
    exact ⟨_, _, rfl, .inl rfl⟩
  | multilineLiteral h =>
    obtain ⟨t', rfl⟩ := h.exists_cons
    exact ⟨_, _, rfl, .inr rfl⟩

theorem value_of_ne {c : Char} (harray : c ≠ '[') (htable : c ≠ '\x7b') (depth : Nat)
    (s : List Char) : value depth (c :: s) = scalar (c :: s) := by
  cases depth with
  | zero => rfl
  | succ depth =>
    rw [value, orElse_apply, orElse_apply, arrayOf, tableOf, bind_apply, bind_apply,
      char_of_ne harray, char_of_ne htable]
    rfl

/-- A value is read up to the end of its line. -/
theorem value_append {v : Toml} {t : List Char} (h : WritesScalar v t) (rest : List Char) :
    value maxDepth (t ++ '\n' :: rest) = some (v, '\n' :: rest) := by
  cases h with
  | @text s t h =>
    obtain ⟨c, t', rfl, hc⟩ := exists_head_of_writes h
    have hne : c ≠ '[' ∧ c ≠ '\x7b' := by
      rcases hc with rfl | rfl <;> decide
    have hstring : string (c :: t' ++ '\n' :: rest) = some (s, '\n' :: rest) :=
      string_append h (by intro d hd; cases hd; decide)
    rw [List.cons_append, value_of_ne hne.1 hne.2, ← List.cons_append, scalar, orElse_apply,
      map_apply, hstring]
    rfl
  | boolean b => cases b <;> rfl

theorem dense_value {v : Toml} {t : List Char} (h : WritesScalar v t) (rest : List Char) :
    Dense (t ++ rest) := by
  cases h with
  | text h =>
    obtain ⟨c, t', rfl, rfl | rfl⟩ := exists_head_of_writes h <;> (intro d hd; cases hd; decide)
  | boolean b => cases b <;> (intro d hd; cases hd; decide)

/-! ### Keys -/

/-- The key can be written without quotes. -/
def IsBareKey (k : String) : Prop := k.toList ≠ [] ∧ ∀ c ∈ k.toList, isBare c = true

/-- Reads a part of a key with white space around it. -/
def spacedPart : Reader String := do
  spaces
  let k ← keyPart
  spaces
  return k

variable {k : String}

theorem IsBareKey.exists_head (hk : IsBareKey k) :
    ∃ c cs, k.toList = c :: cs ∧ isBare c = true := by
  obtain ⟨hne, hbare⟩ := hk
  cases h : k.toList with
  | nil => exact absurd h hne
  | cons c cs => exact ⟨c, cs, rfl, hbare c (h ▸ List.mem_cons_self)⟩

theorem isBare_ne {c d : Char} (h : isBare c = true) (hd : isBare d = false) : c ≠ d := by
  rintro rfl
  exact Bool.false_ne_true (hd.symm.trans h)

theorem keyPart_append (hk : IsBareKey k) {rest : List Char}
    (hrest : ∀ c ∈ rest.head?, isBare c = false) : keyPart (k.toList ++ rest) = some (k, rest) := by
  have hbare := takeWhile1_append hk.1 hk.2 hrest
  obtain ⟨c, cs, hcs, hc⟩ := hk.exists_head
  rw [keyPart, orElse_apply, orElse_apply, map_apply, hbare, Option.map_some, String.ofList_toList,
    hcs, List.cons_append, basic, bind_apply, char_of_ne (isBare_ne hc (by decide)), literal,
    bind_apply, char_of_ne (isBare_ne hc (by decide))]
  rfl

theorem unspaced_key (hk : IsBareKey k) (rest : List Char) : Unspaced (k.toList ++ rest) := by
  obtain ⟨c, cs, hcs, hc⟩ := hk.exists_head
  rw [hcs]
  intro d hd
  cases hd
  have hspace := isBare_ne hc (d := ' ') (by decide)
  have htab := isBare_ne hc (d := '\t') (by decide)
  simp only [isSpace, Bool.or_eq_false_iff, beq_eq_false_iff_ne]
  exact ⟨hspace, htab⟩

theorem key_append (hk : IsBareKey k) (rest : List Char) :
    key (k.toList ++ ' ' :: '=' :: rest) = some (⟨[], k⟩, '=' :: rest) := by
  have hpart : spacedPart (k.toList ++ ' ' :: '=' :: rest) = some (k, '=' :: rest) := by
    rw [spacedPart, bind_apply, spaces_of_unspaced (unspaced_key hk _), Option.bind_some,
      bind_apply, keyPart_append hk (by intro c hc; cases hc; decide), Option.bind_some, bind_apply]
    rfl
  have hone : Reader.many (do let _ ← Reader.char '.'; spacedPart) ('=' :: rest) =
      some ([], '=' :: rest) :=
    many_of_none (by rw [bind_apply, char_of_ne (by decide)]; rfl)
  change ((Reader.separated1 spacedPart (Reader.char '.')) _).bind _ = _
  rw [Reader.separated1, bind_apply, hpart, Option.bind_some, bind_apply, hone]
  rfl

/-! ### Lines -/

/-- The text is an entry that gives a key its value. -/
inductive Entry (m : String × Toml) : List Char → Prop where
  | mk {t : List Char} (hk : IsBareKey m.1) (hv : WritesScalar m.2 t) : Entry m (assignment m.1 t)

/-- What a line with an entry says. -/
def entryLine (m : String × Toml) : Line := .pair ⟨[], m.1⟩ m.2

/-- A line that starts like a key without quotes is no comment, no header and not empty. -/
theorem line_of_isBare {c : Char} (hc : isBare c = true) (s : List Char) :
    line (c :: s) = (pair (value maxDepth) (c :: s)).bind fun x =>
      (trailing x.2).bind fun y => some (.pair x.1.1 x.1.2, y.2) := by
  have hbracket := isBare_ne hc (d := '[') (by decide)
  have hlf := isBare_ne hc (d := '\n') (by decide)
  have hcr := isBare_ne hc (d := '\r') (by decide)
  rw [line, orElse_apply, orElse_apply, orElse_apply, orElse_apply, bind_apply, bind_apply,
    bind_apply, bind_apply, comment, bind_apply, char_of_ne (isBare_ne hc (by decide)),
    newline_of_ne hlf hcr, exactly_of_ne hbracket, char_of_ne hbracket]
  rfl

theorem line_entry {m : String × Toml} {t : List Char} (h : Entry m t) (rest : List Char) :
    line (t ++ rest) = some (entryLine m, rest) := by
  obtain @⟨t, hk, hv⟩ := h
  have hpair : pair (value maxDepth) (m.1.toList ++ ' ' :: '=' :: ' ' :: (t ++ '\n' :: rest)) =
      some ((⟨[], m.1⟩, m.2), '\n' :: rest) := by
    have hspaces : spaces (' ' :: (t ++ '\n' :: rest)) = some ((), t ++ '\n' :: rest) :=
      spaces_append (w := [' ']) (List.forall_mem_singleton.2 rfl) (dense_value hv _).unspaced
    rw [pair, bind_apply, key_append hk, Option.bind_some, bind_apply, char_self, Option.bind_some,
      bind_apply, hspaces, Option.bind_some, bind_apply, value_append hv]
    rfl
  have htrailing : trailing ('\n' :: rest) = some ((), rest) := rfl
  have htext : assignment m.1 t ++ rest =
      m.1.toList ++ ' ' :: '=' :: ' ' :: (t ++ '\n' :: rest) := by
    simp only [assignment, List.append_assoc, List.cons_append, List.nil_append]
  rw [htext]
  obtain ⟨c, cs, hcs, hc⟩ := hk.exists_head
  rw [hcs] at hpair ⊢
  rw [List.cons_append, line_of_isBare hc, ← List.cons_append, hpair, Option.bind_some, htrailing,
    Option.bind_some]
  rfl

/-- Reads a line and the white space in front of the next one. -/
def spacedLine : Reader Line := do
  let l ← line
  spaces
  return l

theorem unspaced_entry {m : String × Toml} {t : List Char} (h : Entry m t) (rest : List Char) :
    Unspaced (t ++ rest) := by
  obtain ⟨hk, -⟩ := h
  rw [assignment, List.append_assoc]
  exact unspaced_key hk _

theorem takes_spacedLine :
    Reader.Takes (fun l t => ∃ m, Entry m t ∧ entryLine m = l) Unspaced spacedLine where
  append := by
    rintro l t rest ⟨m, h, rfl⟩ hrest
    rw [spacedLine, bind_apply, line_entry h, Option.bind_some, bind_apply,
      spaces_of_unspaced hrest]
    rfl
  follows := by
    rintro l t ⟨m, h, -⟩ rest
    exact unspaced_entry h rest
  ne_nil := by
    rintro l t ⟨m, ⟨hk, -⟩, -⟩ hnil
    exact hk.1 (List.append_eq_nil_iff.1 hnil).1

theorem lines_entries {ms : List (String × Toml)} {ts : List (List Char)}
    (h : List.Forall₂ Entry ms ts) : lines ts.flatten = some (ms.map entryLine, []) := by
  have hlines : List.Forall₂ (fun l t => ∃ m, Entry m t ∧ entryLine m = l) (ms.map entryLine) ts :=
    List.forall₂_map_left_iff.2 (h.imp fun m _ hm => ⟨m, hm, rfl⟩)
  have hnil : Unspaced [] := fun c hc => nomatch hc
  have hunspaced := takes_spacedLine.follows_flatten hlines hnil
  have hmany := takes_spacedLine.many_append hlines hnil rfl
  have hmark : Reader.char '\ufeff' ts.flatten = none := by
    cases h with
    | nil => rfl
    | cons ht _ =>
      obtain ⟨hk, -⟩ := ht
      obtain ⟨c, cs, hcs, hc⟩ := hk.exists_head
      rw [List.flatten_cons, assignment, hcs]
      exact char_of_ne (isBare_ne hc (by decide)) _
  rw [List.append_nil] at hunspaced hmany
  rw [lines, bind_apply, optional_of_none hmark, Option.bind_some, bind_apply,
    spaces_of_unspaced hunspaced, Option.bind_some, bind_apply]
  change ((Reader.many spacedLine ts.flatten).bind _) = _
  rw [hmany]
  rfl

/-! ### Tables -/

/-- A new key is added at the end. -/
theorem Members.alter_of_not_mem {ms : Members} (h : k ∉ ms.map Prod.fst)
    (f : Option Node → Option Node) : alter k f ms = (f none).map fun n => ms ++ [(k, n)] := by
  induction ms with
  | nil => rfl
  | cons m ms ih =>
    obtain ⟨hm, hms⟩ := not_or.1 (List.mem_cons.not.1 h)
    rw [alter, if_neg hm, ih hms, Option.map_map]
    rfl

/-- The members as they are while a document is read. -/
def leaves (ms : List (String × Toml)) : Members := ms.map fun m => (m.1, .leaf m.2)

theorem map_fst_leaves (ms : List (String × Toml)) :
    (leaves ms).map Prod.fst = ms.map Prod.fst := by
  rw [leaves, List.map_map]
  rfl

theorem finish_leaves (ms : List (String × Toml)) : finish (leaves ms) = ms := by
  induction ms with
  | nil => rfl
  | cons m ms ih =>
    rw [leaves, List.map_cons, finish, ← leaves, ih, Node.toToml]

theorem add_entryLine {ms : Members} {m : String × Toml} (h : m.1 ∉ ms.map Prod.fst) :
    Draft.add ⟨ms, []⟩ (entryLine m) = some ⟨ms ++ leaves [m], []⟩ := by
  change (Members.alter m.1 _ ms).map _ = _
  rw [Members.alter_of_not_mem h]
  rfl

theorem foldlM_entryLine {ms ms' : List (String × Toml)}
    (h : ((ms ++ ms').map Prod.fst).Nodup) :
    (ms'.map entryLine).foldlM Draft.add ⟨leaves ms, []⟩ = some ⟨leaves (ms ++ ms'), []⟩ := by
  induction ms' generalizing ms with
  | nil => rw [List.append_nil]; rfl
  | cons m ms' ih =>
    have hnew : m.1 ∉ (leaves ms).map Prod.fst := by
      rw [List.map_append, List.map_cons] at h
      rw [map_fst_leaves]
      exact fun hm => (List.nodup_append.1 h).2.2 _ hm _ List.mem_cons_self rfl
    rw [← List.singleton_append, ← List.append_assoc] at h ⊢
    rw [List.singleton_append, List.map_cons, List.foldlM_cons, add_entryLine hnew]
    change (ms'.map entryLine).foldlM Draft.add ⟨leaves ms ++ leaves [m], []⟩ = _
    rw [← ih h, leaves, leaves, leaves, List.map_append]

/-- **A document of entries has the members that they write**, if their keys differ. -/
theorem ofText?_entries {ms : List (String × Toml)} {ts : List (List Char)}
    (h : List.Forall₂ Entry ms ts) (hkeys : (ms.map Prod.fst).Nodup) :
    ofText? (String.ofList ts.flatten) = some ms := by
  have hfold : (ms.map entryLine).foldlM Draft.add ⟨leaves [], []⟩ = some ⟨leaves ms, []⟩ :=
    foldlM_entryLine hkeys
  rw [ofText?, Reader.whole, String.toList_ofList, lines_entries h]
  change ofLines? (ms.map entryLine) = some ms
  change ((ms.map entryLine).foldlM Draft.add ⟨leaves [], []⟩).map _ = _
  rw [hfold, Option.map_some, finish_leaves]

end Toml

end BoundSql
