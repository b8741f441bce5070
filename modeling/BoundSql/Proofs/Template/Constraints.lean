import BoundSql.Proofs.Draft
import BoundSql.Proofs.Template.Kept
import Mathlib

/-!
# The constraints of a template

Whatever is kept of the entry of a column stands in the definition of the column, each default and
each check at a place of its own (`Stand`).  Rendering puts the texts of a list next to each other
and ordering by rank moves them, and neither loses any (`ColumnSpec.stand_of_single`).  What is not
kept has no effect on the definition.

`Template.constraints_kept` says so for all columns of all templates, and that everything is kept
exactly if each mapping has one member.  A mapping with several is read in part without an error, so
a check beside a default is lost (`Template.constraints_not_kept`).
-/

namespace BoundSql

/-! ### Places in a text -/

/-- At how many places of a text this text starts. -/
def occurrences (p : List Char) : List Char → Nat
  | [] => 0
  | c :: cs => (if p <+: c :: cs then 1 else 0) + occurrences p cs

theorem occurrences_append_le (p a b : List Char) :
    occurrences p a + occurrences p b ≤ occurrences p (a ++ b) := by
  induction a with
  | nil => simp only [occurrences, List.nil_append, Nat.zero_add, Nat.le_refl]
  | cons c a ih =>
    simp only [occurrences, List.cons_append]
    by_cases h : p <+: c :: a
    · have h' : p <+: c :: (a ++ b) := h.trans (List.prefix_append (c :: a) b)
      simp only [if_pos h, if_pos h']
      omega
    · simp only [if_neg h]
      omega

/-- A text starts where it stands, and what follows its first character is another place. -/
theorem occurrences_self (p : List Char) (c : Char) (cs : List Char) :
    (if p = c :: cs then 1 else 0) + occurrences p cs ≤ occurrences p (c :: cs) := by
  rw [occurrences]
  by_cases h : p = c :: cs
  · have hprefix : p <+: c :: cs := h ▸ List.prefix_rfl
    simp only [if_pos h, if_pos hprefix, Nat.le_refl]
  · simp only [if_neg h]
    omega

/-! ### Constraints that stand in a line -/

open Entry

/-- Each of the constraints has a text that stands in the line, at a place of its own: no text has
fewer places than constraints. -/
structure Stand (ms : List (String × Entry)) (line : String) : Prop where
  text : ∀ m ∈ ms, ∃ s, constraintText? m = some s
  places : ∀ s : String,
    ms.countP (fun m => constraintText? m == some s) ≤ occurrences s.toList line.toList

namespace Stand

variable {ms ms' : List (String × Entry)} {line line' : String}

theorem nil (line : String) : Stand [] line :=
  ⟨fun _ h => absurd h List.not_mem_nil, fun _ => Nat.zero_le _⟩

theorem perm (h : Stand ms line) (hp : ms.Perm ms') : Stand ms' line :=
  ⟨fun m hm => h.text m (hp.mem_iff.2 hm), fun s => hp.countP_eq _ ▸ h.places s⟩

theorem append (h : Stand ms line) (h' : Stand ms' line') : Stand (ms ++ ms') (line ++ line') := by
  refine ⟨fun m hm => (List.mem_append.1 hm).elim (h.text m) (h'.text m), fun s => ?_⟩
  have hle := occurrences_append_le s.toList line.toList line'.toList
  have hplaces := h.places s
  have hplaces' := h'.places s
  rw [List.countP_append, String.toList_append]
  omega

/-- A constraint whose text is the whole line, and those that stand behind the start of it. -/
theorem cons (h : Stand ms line) {m : String × Entry} {start : String} (hstart : start ≠ "")
    (hm : constraintText? m = some (start ++ line)) : Stand (m :: ms) (start ++ line) := by
  refine ⟨List.forall_mem_cons.2 ⟨⟨_, hm⟩, h.text⟩, fun s => ?_⟩
  obtain ⟨c, cs, hcs⟩ : ∃ c cs, (start ++ line).toList = c :: (cs ++ line.toList) := by
    rw [String.toList_append]
    cases hlist : start.toList with
    | nil => exact absurd (String.toList_eq_nil_iff.1 hlist) hstart
    | cons c cs => exact ⟨c, cs, rfl⟩
  have hplaces := h.places s
  have hself := occurrences_self s.toList c (cs ++ line.toList)
  have hle := occurrences_append_le s.toList cs line.toList
  rw [List.countP_cons, hm, hcs]
  by_cases heq : start ++ line = s
  · rw [if_pos (heq ▸ hcs)] at hself
    rw [if_pos (beq_iff_eq.2 (congrArg some heq))]
    omega
  · rw [if_neg fun hbeq => heq (Option.some.inj (beq_iff_eq.1 hbeq))]
    omega

/-- What stands in the parts of a line stands in the line. -/
theorem intercalate {α : Type} {f : α → List (String × Entry)} {separator : String} {parts : List α}
    {lines : List String} (h : List.Forall₂ (fun a line => Stand (f a) line) parts lines) :
    Stand (parts.flatMap f) (separator.intercalate lines) := by
  induction h with
  | nil => exact nil _
  | @cons a line parts lines ha hrest ih =>
    cases hrest with
    | nil =>
      rw [List.flatMap_cons, List.flatMap_nil, List.append_nil, String.intercalate_singleton]
      exact ha
    | cons _ _ =>
      rw [List.flatMap_cons, String.intercalate_cons_cons, String.append_assoc]
      exact ha.append ((nil separator).append ih)

end Stand

/-! ### Definitions of columns -/

/-- What two lists have to do with each other through a third. -/
theorem forall₂_comp {α β γ : Type} {R : α → β → Prop} {S : β → γ → Prop} {as : List α}
    {bs : List β} {cs : List γ} (h : List.Forall₂ R as bs) (h' : List.Forall₂ S bs cs) :
    List.Forall₂ (fun a c => ∃ b, R a b ∧ S b c) as cs := by
  induction h generalizing cs with
  | nil =>
    cases h'
    exact .nil
  | cons hab _ ih =>
    cases h' with
    | cons hbc hrest => exact .cons ⟨_, hab, hbc⟩ (ih hrest)

namespace Token

/-- The text of a list is the texts of its items with spaces in between. -/
theorem render_list_eq_ok {ts : List Token} {d : String} (h : render (.list ts) = .ok d) :
    ∃ ds, List.Forall₂ (fun t d => render t = .ok d) ts ds ∧ d = " ".intercalate ds := by
  cases ts with
  | nil => cases h
  | cons t rest =>
    rw [render_list_cons] at h
    obtain ⟨ds, hds, rfl⟩ := map_eq_ok.1 h
    exact ⟨ds, mapM_eq_ok_iff.1 hds, rfl⟩

end Token

namespace Entry

/-- The entry is read as a token that has this text. -/
def Renders (e : Entry) (d : String) : Prop := ∃ t, Token.ofEntry? e = some t ∧ t.render = .ok d

/-- The items of a list and the texts of its tokens. -/
theorem forall₂_renders {items : List Entry} {ts : List Token} {ds : List String}
    (hts : items.mapM Token.ofEntry? = some ts)
    (hds : List.Forall₂ (fun t d => t.render = .ok d) ts ds) :
    List.Forall₂ Renders items ds :=
  forall₂_comp (mapM_eq_some_iff.1 hts) hds

theorem constraintText?_default {e : Entry} {d : String} (h : e.Renders d) :
    constraintText? (Token.defaultName, e) = some ("DEFAULT " ++ d) := by
  obtain ⟨t, ht, hd⟩ := h
  rw [constraintText?, if_pos rfl, ht, Option.bind_some, hd]
  rfl

/-- **All constraints of an entry stand in its text**, if each of its mappings has one member. -/
theorem stand_of_single {e : Entry} {d : String} (hs : e.Single) (h : e.Renders d) :
    Stand e.constraints d := by
  induction hs generalizing d with
  | @list items _ ih =>
    obtain ⟨t, ht, hd⟩ := h
    rw [Token.ofEntry?_list, Option.map_eq_some_iff] at ht
    obtain ⟨ts, hts, rfl⟩ := ht
    obtain ⟨ds, hds, rfl⟩ := Token.render_list_eq_ok hd
    have hall := (List.forall₂_and_left _ _).2 ⟨fun e he => he, forall₂_renders hts hds⟩
    rw [constraints_list]
    exact Stand.intercalate (hall.imp fun e d he => ih e he.1 he.2)
  | @members name e _ ih =>
    obtain ⟨t, ht, hd⟩ := h
    rw [constraints_members, List.flatMap_singleton]
    cases reading [(name, e)] with
    | @default e' t' hchosen he h =>
      cases List.mem_singleton.1 (mem_of_chosen hchosen)
      obtain rfl := Option.some.inj (ht.symm.trans h)
      rw [Token.render, bind_eq_ok] at hd
      obtain ⟨d', hd', h⟩ := hd
      obtain rfl := Except.ok.inj h
      exact (ih ⟨t', he, hd'⟩).cons (by decide) (constraintText?_default ⟨t', he, hd'⟩)
    | @check s hchosen h =>
      cases List.mem_singleton.1 (mem_of_chosen hchosen)
      obtain rfl := Option.some.inj (ht.symm.trans h)
      obtain rfl := Except.ok.inj hd
      rw [String.append_assoc]
      exact (Stand.nil _).cons (by decide) (congrArg some (String.append_assoc ..))
    | unread hchosen hnone => cases ht.symm.trans hnone
  | _ => exact Stand.nil d

end Entry

namespace Token

/-- Only a list is read as a list. -/
theorem eq_list_of_ofEntry? {e : Entry} {ts : List Token} (h : ofEntry? e = some (.list ts)) :
    ∃ items, e = .list items ∧ items.mapM ofEntry? = some ts := by
  cases e with
  | list items =>
    rw [ofEntry?_list, Option.map_eq_some_iff] at h
    obtain ⟨ts', hts, heq⟩ := h
    cases heq
    exact ⟨items, rfl, hts⟩
  | text s =>
    have htext := Option.some.inj h
    rw [ofText] at htext
    split at htext <;> cases htext
  | members ms =>
    cases reading ms with
    | default hchosen he hread => cases h.symm.trans hread
    | check hchosen hread => cases h.symm.trans hread
    | unread hchosen hread => cases h.symm.trans hread
  | _ => cases h

end Token

namespace ColumnSpec

/-- A specification is read from the tokens of a list, or from one token that is not a list. -/
theorem ofEntry?_eq_some {e : Entry} {spec : ColumnSpec} (h : ofEntry? e = some spec) :
    (∃ items ts, e = .list items ∧ items.mapM Token.ofEntry? = some ts ∧ spec = .many ts) ∨
      ∃ t, Token.ofEntry? e = some t ∧ spec = .one t ∧
        ColumnSpec.definition (.one t) = t.render := by
  rw [ColumnSpec.ofEntry?] at h
  cases ht : Token.ofEntry? e with
  | none => rw [ht] at h; cases h
  | some t =>
    rw [ht] at h
    cases t with
    | list ts =>
      obtain ⟨items, rfl, hts⟩ := Token.eq_list_of_ofEntry? ht
      exact .inl ⟨items, ts, rfl, hts, (Option.some.inj h).symm⟩
    | _ => exact .inr ⟨_, rfl, (Option.some.inj h).symm, rfl⟩

/-- The parts of the definition of a column with several tokens, ordered by rank. -/
theorem definition_many_eq_ok {ts : List Token} {d : String}
    (h : ColumnSpec.definition (.many ts) = .ok d) :
    ∃ ds, List.Forall₂ (fun t d => t.render = .ok d) (Token.sorted ts) ds ∧
      d = " ".intercalate ds := by
  rw [definition] at h
  by_cases hempty : ts.isEmpty
  · rw [if_pos hempty] at h
    cases h
  · rw [if_neg hempty, columnDefinition, Token.renderAll_eq_mapM, bind_eq_ok] at h
    obtain ⟨ds, hds, h⟩ := h
    exact ⟨ds, mapM_eq_ok_iff.1 hds, (Except.ok.inj h).symm⟩

/-- All constraints of an entry stand in the definition of its column, if each of its mappings has
one member.  Ordering the tokens moves the constraints of a list but loses none. -/
theorem stand_of_single {e : Entry} {spec : ColumnSpec} {d : String} (hs : e.Single)
    (h : ofEntry? e = some spec) (hd : spec.definition = .ok d) : Stand e.constraints d := by
  obtain ⟨items, ts, rfl, hts, rfl⟩ | ⟨t, ht, rfl, hdef⟩ := ofEntry?_eq_some h
  · obtain ⟨ds, hds, rfl⟩ := definition_many_eq_ok hd
    -- The items are put in the order of their tokens, and the constraints back afterwards.
    obtain ⟨items', hitems', hperm⟩ :=
      List.perm_comp_forall₂ (List.mergeSort_perm ts _) (mapM_eq_some_iff.1 hts).flip
    cases hs with
    | list hs =>
      have hrenders : List.Forall₂ Entry.Renders items' ds := forall₂_comp hitems'.flip hds
      have hstand : List.Forall₂ (fun e d => Stand e.constraints d) items' ds :=
        ((List.forall₂_and_left _ _).2 ⟨fun e he => hs e (hperm.mem_iff.1 he), hrenders⟩).imp
          fun e d he => Entry.stand_of_single he.1 he.2
      rw [Entry.constraints_list]
      exact (Stand.intercalate hstand).perm (hperm.flatMap_right _)
  · exact Entry.stand_of_single hs ⟨t, ht, hdef ▸ hd⟩

end ColumnSpec

namespace Entry

/-- What the definition of a column says of the entry that specifies it. -/
structure Keeps (e : Entry) (d : String) : Prop where
  /-- The column is as if only what is kept were written. -/
  spec : ColumnSpec.ofEntry? e.kept = ColumnSpec.ofEntry? e
  /-- All constraints that are kept stand in the definition. -/
  stand : Stand e.kept.constraints d
  /-- They are some of the constraints of the entry. -/
  sublist : (e.kept.constraints.map constraintText?).Sublist (e.constraints.map constraintText?)
  /-- Everything is kept if, and only if, each mapping has one member. -/
  whole : e.kept = e ↔ e.Single
  /-- In that case all constraints stand in the definition. -/
  all : e.Single → Stand e.constraints d

theorem keeps {e : Entry} {spec : ColumnSpec} {d : String} (h : ColumnSpec.ofEntry? e = some spec)
    (hd : spec.definition = .ok d) : e.Keeps d := by
  have hspec : ColumnSpec.ofEntry? e.kept = ColumnSpec.ofEntry? e := by
    rw [ColumnSpec.ofEntry?, ColumnSpec.ofEntry?, ofEntry?_kept]
  obtain ⟨t, ht⟩ : ∃ t, Token.ofEntry? e = some t := by
    rw [ColumnSpec.ofEntry?, Option.bind_eq_bind, Option.bind_eq_some_iff] at h
    exact h.imp fun _ h => h.1
  exact {
    spec := hspec
    stand := ColumnSpec.stand_of_single (single_kept ht) (hspec.trans h) hd
    sublist := constraintText?_kept_sublist e
    whole := kept_eq_self_iff ht
    all := fun hs => ColumnSpec.stand_of_single hs h hd }

end Entry

/-! ### Lines of tables -/

/-- Only an object has members. -/
theorem Entry.ofJson_eq_members {j : Json} {es : List (String × Entry)}
    (h : Entry.ofJson j = .members es) :
    ∃ ms, j = .object ms ∧ es = ms.map fun m => (m.1, .ofJson m.2) := by
  cases j with
  | object ms =>
    rw [Entry.ofJson, Entry.ofJsonMembers_eq_map] at h
    exact ⟨ms, rfl, (Entry.members.inj h).symm⟩
  | number n =>
    rw [Entry.ofJson, Entry.ofNumber] at h
    split at h <;> cases h
  | _ => cases h

namespace TableDef

/-- A member of a table other than the foreign keys adds its column. -/
theorem addMember?_eq_some {arity : ReferenceArity} {t t' : TableDef} {m : String × Entry}
    (h : addMember? arity t m = some t') :
    (m.1 = foreignKeyName ∧ t'.columns = t.columns) ∨
      (m.1 ≠ foreignKeyName ∧ ∃ spec, ColumnSpec.ofEntry? m.2 = some spec ∧
        t'.columns = t.columns ++ [(m.1, spec)]) := by
  rw [addMember?] at h
  split_ifs at h with hname hkeys
  · obtain ⟨keys, -, rfl⟩ := Option.map_eq_some_iff.1 h
    exact .inl ⟨hname, rfl⟩
  · obtain ⟨spec, hspec, rfl⟩ := Option.map_eq_some_iff.1 h
    exact .inr ⟨hname, spec, hspec, rfl⟩

/-- The columns of a table are its members other than the foreign keys, in order. -/
theorem columns_of_foldlM {arity : ReferenceArity} {ms : List (String × Entry)} {t t' : TableDef}
    (h : ms.foldlM (addMember? arity) t = some t') :
    ∃ columns, t'.columns = t.columns ++ columns ∧
      List.Forall₂ (fun m c => m.1 = c.1 ∧ ColumnSpec.ofEntry? m.2 = some c.2)
        (ms.filter fun m => m.1 != foreignKeyName) columns := by
  induction ms generalizing t with
  | nil =>
    cases h
    exact ⟨[], (List.append_nil _).symm, .nil⟩
  | cons m rest ih =>
    rw [List.foldlM_cons, Option.bind_eq_bind, Option.bind_eq_some_iff] at h
    obtain ⟨t₁, hfirst, hrest⟩ := h
    obtain ⟨columns, hcolumns, hall⟩ := ih hrest
    obtain ⟨hname, hsame⟩ | ⟨hname, spec, hspec, hadd⟩ := addMember?_eq_some hfirst
    · have hdrop : ¬(m.1 != foreignKeyName) = true := fun h => bne_iff_ne.1 h hname
      refine ⟨columns, hsame ▸ hcolumns, ?_⟩
      rwa [List.filter_cons, if_neg hdrop]
    · refine ⟨(m.1, spec) :: columns, ?_, ?_⟩
      · rw [hcolumns, hadd, List.append_assoc, List.singleton_append]
      · rw [List.filter_cons, if_pos (bne_iff_ne.2 hname)]
        exact .cons ⟨rfl, hspec⟩ hall

/-- What the lines of a table say of the document that writes it: its columns have a line each, in
order. -/
def Keeps (j : Json) (t : TableDef) : Prop :=
  ∃ ms, j = .object ms ∧ ∀ lines, t.lines = .ok lines →
    ∃ columnLines, lines = columnLines ++ t.foreignKeys.map ForeignKey.line ∧
      List.Forall₂ (fun m line => ∃ d, line = m.1 ++ " " ++ d ∧ (Entry.ofJson m.2).Keeps d)
        (ms.filter fun m => m.1 != foreignKeyName) columnLines

theorem keeps {arity : ReferenceArity} {j : Json} {t : TableDef}
    (h : ofEntry? arity (.ofJson j) = some t) : t.Keeps j := by
  obtain ⟨es, hes, hfold⟩ : ∃ es, Entry.ofJson j = .members es ∧
      es.foldlM (addMember? arity) {} = some t := by
    cases hj : Entry.ofJson j with
    | members es =>
      rw [hj] at h
      exact ⟨es, rfl, h⟩
    | _ =>
      rw [hj] at h
      cases h
  obtain ⟨ms, rfl, rfl⟩ := Entry.ofJson_eq_members hes
  obtain ⟨columns, hcolumns, hall⟩ := columns_of_foldlM hfold
  rw [List.nil_append] at hcolumns
  rw [List.filter_map, List.forall₂_map_left_iff] at hall
  refine ⟨ms, rfl, fun lines hlines => ?_⟩
  rw [TableDef.lines, bind_eq_ok] at hlines
  obtain ⟨columnLines, hcolumnLines, h⟩ := hlines
  rw [hcolumns, mapM_eq_ok_iff] at hcolumnLines
  refine ⟨columnLines, (Except.ok.inj h).symm, ?_⟩
  refine (forall₂_comp hall hcolumnLines).imp fun m line => ?_
  rintro ⟨c, ⟨hname, hspec⟩, hline⟩
  rw [columnLine, bind_eq_ok] at hline
  obtain ⟨d, hd, h⟩ := hline
  exact ⟨d, by rw [hname, Except.ok.inj h], Entry.keeps hspec hd⟩

end TableDef

namespace Template

/-- **Constraints of a template.**  Each column of an accepted text has a line, and in it stand all
constraints that are kept of its entry; these are all there are unless a mapping has several
members. -/
theorem constraints_kept {s : String} {T : Template} (h : ofJsonText? s = some T) :
    ∃ ms, Json.ofText? s = some (.object ms) ∧
      List.Forall₂ (fun m table => m.1 = table.1 ∧ TableDef.Keeps m.2 table.2) ms T.tables := by
  rw [ofJsonText?, Option.bind_eq_bind, Option.bind_eq_some_iff] at h
  obtain ⟨j, hj, h⟩ := h
  rw [ofJson?] at h
  split at h
  · rename_i es hes
    obtain ⟨ms, rfl, rfl⟩ := Entry.ofJson_eq_members hes
    obtain ⟨tables, htables, rfl⟩ := Option.map_eq_some_iff.1 h
    rw [mapM_eq_some_iff, List.forall₂_map_left_iff] at htables
    refine ⟨ms, hj, htables.imp fun m table hm => ?_⟩
    obtain ⟨t, ht, rfl⟩ := Option.map_eq_some_iff.1 hm
    exact ⟨rfl, TableDef.keeps ht⟩
  · cases h

/-- A table with constraints inside lists and inside one another. -/
def nestedText : String :=
  "\x7b\"t\": \x7b\"n\": [\x7b\"CHECK\": \"n > 0\"\x7d, [\x7b\"DEFAULT\": 1\x7d]]," ++
    "\"FOREIGN_KEY\": \x7b\"n\": [\"u\", \"id\"]\x7d," ++
    "\"d\": \x7b\"DEFAULT\": \x7b\"DEFAULT\": 2\x7d\x7d\x7d\x7d"

/-- What `nestedText` writes. -/
def nestedTable : TableDef where
  columns :=
    [("n", .many [.check "n > 0", .list [.default (.integer 1)]]),
      ("d", .one (.default (.default (.integer 2))))]
  foreignKeys := [⟨"n", "u", "id"⟩]

theorem constraints_kept_nested :
    ofJsonText? nestedText = some ⟨[("t", nestedTable)]⟩ ∧
      nestedTable.lines = .ok ["n DEFAULT 1 CHECK (n > 0)", "d DEFAULT DEFAULT 2",
        "FOREIGN KEY (n) REFERENCES u (id)"] ∧
      ∃ ms, Json.ofText? nestedText = some (.object ms) ∧
        List.Forall₂ (fun m table => m.1 = table.1 ∧ TableDef.Keeps m.2 table.2) ms
          [("t", nestedTable)] := by
  have hn : TableDef.columnLine ("n", .many [.check "n > 0", .list [.default (.integer 1)]]) =
      .ok "n DEFAULT 1 CHECK (n > 0)" := by cbv
  have hd : TableDef.columnLine ("d", .one (.default (.default (.integer 2)))) =
      .ok "d DEFAULT DEFAULT 2" := by cbv
  have hkey : ForeignKey.line ⟨"n", "u", "id"⟩ = "FOREIGN KEY (n) REFERENCES u (id)" := by
    decide +kernel
  have hread : ofJsonText? nestedText = some ⟨[("t", nestedTable)]⟩ := by cbv
  refine ⟨hread, ?_, constraints_kept hread⟩
  simp only [TableDef.lines, nestedTable, List.mapM_cons, hn, hd, List.map_cons, hkey]
  rfl

/-- A column whose default and check are members of one mapping. -/
def besideText : String :=
  "\x7b\"t\": \x7b\"n\": \x7b\"DEFAULT\": 0, \"CHECK\": \"n > 0\"\x7d\x7d\x7d"

/-- A check beside a default is lost: the text is accepted, and the column has the default only. -/
theorem constraints_not_kept :
    ofJsonText? besideText = some ⟨[("t", ⟨[("n", .one (.default (.integer 0)))], []⟩)]⟩ ∧
      TableDef.lines ⟨[("n", .one (.default (.integer 0)))], []⟩ = .ok ["n DEFAULT 0"] ∧
      ∃ ms, Json.ofText? besideText = some (.object [("t", .object [("n", .object ms)])]) ∧
        ¬Stand (Entry.constraints (.ofJson (.object ms))) "n DEFAULT 0" := by
  refine ⟨by cbv, by cbv, [("DEFAULT", .number (.integer 0)), ("CHECK", .string "n > 0")],
    by cbv, fun h => ?_⟩
  have hplaces := h.places "CHECK (n > 0)"
  have hcount : (Entry.constraints (.ofJson (.object
      [("DEFAULT", .number (.integer 0)), ("CHECK", .string "n > 0")]))).countP
        (fun m => Entry.constraintText? m == some "CHECK (n > 0)") = 1 := by cbv
  have hnone : occurrences "CHECK (n > 0)".toList "n DEFAULT 0".toList = 0 := by decide
  omega

end Template

end BoundSql
