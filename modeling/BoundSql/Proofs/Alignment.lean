import BoundSql.Proofs.Clauses

/-!
# Values stand where their placeholders are

A statement binds values to placeholders by position, so every piece of it must find as many values
in front of its own as the scanner counts placeholders in front of it.  A segment list is
*positioned* (`Segment.Positioned`) if this holds at each of its pieces.

An input is *tidy* if its names are neutral and each text of the caller in its conditions is exact.
`Draft.positions` is the main statement: a tidy draft whose common tables are queries built from
tidy queries, to any depth, never fails for a number of placeholders, and what is built from it is
positioned.  The invariant is that every segment is exact: tidy names are neutral, and what is tidy
passes its check and is exact (`Aligns`), so the segments are (`Draft.outcome_layouts`).
-/

namespace BoundSql

open Placeholder (Neutral)

/-! ### Positions -/

namespace Segment

/-- All segments are exact. -/
def AllExact (l : List Segment) : Prop := ∀ s ∈ l, s.fragment.Exact

/-- In front of each piece there are as many values as the scanner counts placeholders, and it
stands outside quotes there; the piece has a value for each placeholder of its own, and so has the
whole. -/
structure Positioned (l : List Segment) : Prop where
  before : ∀ pre f post, l = pre ++ .piece f :: post →
    (join pre).placeholders = (join pre).values.length ∧
      Placeholder.after none (join pre).script.toList = none ∧
      f.placeholders = f.values.length
  total : (join l).placeholders = (join l).values.length

theorem exact_join {l : List Segment} (h : AllExact l) : (join l).Exact := by
  induction l with
  | nil => exact Fragment.exact_empty
  | cons s l ih =>
    exact (h s List.mem_cons_self).append (ih fun t ht => h t (List.mem_cons_of_mem s ht))

theorem positioned_of_allExact {l : List Segment} (h : AllExact l) : Positioned l where
  before := by
    rintro pre f post rfl
    have hpre : (join pre).Exact := exact_join fun s hs => h s (List.mem_append_left _ hs)
    have hf : f.Exact := h (.piece f) (List.mem_append_right _ List.mem_cons_self)
    exact ⟨hpre.counted, hpre.closed, hf.counted⟩
  total := (exact_join h).counted

theorem allExact_of_allNeat {l : List Segment} (h : AllNeat Fragment.Exact l) : AllExact l := by
  intro s hs
  cases s with
  | text t => exact Fragment.exact_text (h _ hs)
  | piece f => exact h _ hs

end Segment

/-! ### Errors other than a number of placeholders -/

/-- A result with `P`, or an error that is not about a number of placeholders. -/
def Aligns {α : Type} (P : α → Prop) : Except Error α → Prop
  | .ok a => P a
  | .error e => e.isMisaligned = false

namespace Aligns

variable {α β : Type} {P : α → Prop} {Q : β → Prop}

theorem bind {r : Except Error α} (hr : Aligns P r) {f : α → Except Error β}
    (hf : ∀ a, P a → Aligns Q (f a)) : Aligns Q (r >>= f) :=
  Outcome.bind hr hf

theorem mapM {l : List α} {f : α → Except Error β} (h : ∀ a ∈ l, Aligns Q (f a)) :
    Aligns (fun bs => ∀ b ∈ bs, Q b) (l.mapM f) :=
  Outcome.mapM h

/-- An exact fragment passes the check of its placeholders. -/
theorem checked {f : Fragment} (h : f.Exact) (clause : String) :
    Aligns Fragment.Exact (f.checked clause) := by
  rw [h.checked]
  exact h

end Aligns

/-! ### Conditions -/

namespace Expr

/-- Column names are neutral, and texts of the caller exact. -/
def Tidy : Expr → Prop
  | column name | like name _ | isNull name | isNotNull name | isIn name _ | between name _ _ =>
    Neutral name
  | bound _ => True
  | raw text values => Fragment.Exact ⟨text, values⟩
  | arithmetic _ left right | compare _ left right | and left right | or left right =>
    left.Tidy ∧ right.Tidy
  | not e => e.Tidy

theorem exact_grouped {f : Fragment} (h : f.Exact) (needed : Bool) : (grouped needed f).Exact := by
  cases needed with
  | true => exact h.parenthesized
  | false => exact h

theorem exact_binary {op : String} (ho : Neutral op) {left right : Fragment} (hl : left.Exact)
    (hr : right.Exact) : (binary op left right).Exact := by
  have hs : Neutral " " := by decide
  exact (hl.append (Fragment.exact_text ((hs.append ho).append hs))).append hr

theorem neutral_operator (o : Operator) : Neutral o.sql := by
  cases o <;> decide

theorem neutral_arithmetic (o : Arithmetic) : Neutral o.sql := by
  cases o <;> decide

/-- **A tidy expression is written exactly.** -/
theorem Tidy.exact_render {e : Expr} (h : e.Tidy) : e.render.Exact := by
  induction e with
  | column name => exact Fragment.exact_text h
  | bound v => exact Fragment.exact_placeholder v
  | raw text values => exact h
  | arithmetic op left right ihl ihr =>
    exact exact_binary (neutral_arithmetic op) (exact_grouped (ihl h.1) _)
      (exact_grouped (ihr h.2) _)
  | compare op left right ihl ihr =>
    exact exact_binary (neutral_operator op) (exact_grouped (ihl h.1) _)
      (exact_grouped (ihr h.2) _)
  | like name pattern =>
    have hn : Neutral (name ++ " LIKE ") := Neutral.append h (by decide)
    exact (Fragment.exact_text hn).append (Fragment.exact_placeholder pattern)
  | isNull name => exact Fragment.exact_text (Neutral.append h (by decide))
  | isNotNull name => exact Fragment.exact_text (Neutral.append h (by decide))
  | isIn name values =>
    have hn : Neutral (name ++ " IN (") := Neutral.append h (by decide)
    have hv : (Fragment.joined ", " (values.map Fragment.placeholder)).Exact := by
      refine Fragment.Exact.joined (by decide) fun f hf => ?_
      obtain ⟨v, -, rfl⟩ := List.mem_map.1 hf
      exact Fragment.exact_placeholder v
    exact ((Fragment.exact_text hn).append hv).append
      (Fragment.exact_text (by decide))
  | between name low high =>
    have hn : Neutral (name ++ " BETWEEN ") := Neutral.append h (by decide)
    exact (((Fragment.exact_text hn).append (Fragment.exact_placeholder low)).append
      (Fragment.exact_text (by decide))).append (Fragment.exact_placeholder high)
  | not e ih =>
    exact (Fragment.exact_text (by decide)).append (ih h).parenthesized
  | and left right ihl ihr =>
    exact exact_binary (by decide) (exact_grouped (ihl h.1) _)
      (exact_grouped (ihr h.2) _)
  | or left right ihl ihr =>
    exact exact_binary (by decide) (exact_grouped (ihl h.1) _)
      (exact_grouped (ihr h.2) _)

/-- Combining tidy expressions from the left keeps them tidy. -/
theorem tidy_foldl (combine : Expr → Expr → Expr)
    (hc : ∀ a b : Expr, a.Tidy → b.Tidy → (combine a b).Tidy) {e : Expr} {es : List Expr}
    (h : ∀ a ∈ e :: es, a.Tidy) : (es.foldl combine e).Tidy := by
  induction es generalizing e with
  | nil => exact h e List.mem_cons_self
  | cons a es ih =>
    refine ih fun b hb => ?_
    rcases List.mem_cons.1 hb with rfl | hb
    · exact hc e a (h e List.mem_cons_self) (h a (List.mem_cons_of_mem e List.mem_cons_self))
    · exact h b (List.mem_cons_of_mem e (List.mem_cons_of_mem a hb))

theorem tidy_all {es : List Expr} (h : ∀ a ∈ es, a.Tidy) {e : Expr} (he : all es = some e) :
    e.Tidy := by
  cases es with
  | nil => cases he
  | cons a es =>
    cases he
    exact tidy_foldl and (fun _ _ ha hb => ⟨ha, hb⟩) h

theorem tidy_any {es : List Expr} (h : ∀ a ∈ es, a.Tidy) {e : Expr} (he : any es = some e) :
    e.Tidy := by
  cases es with
  | nil => cases he
  | cons a es =>
    cases he
    exact tidy_foldl or (fun _ _ ha hb => ⟨ha, hb⟩) h

end Expr

namespace Where

/-- Column names are neutral, and texts of the caller exact; a literal text has no values. -/
def Tidy : Where → Prop
  | mapping entries => ∀ e ∈ entries, Neutral e.1
  | condition e => e.Tidy
  | raw text => Fragment.Exact ⟨text, []⟩

theorem aligns_entry {e : String × Predicate} (h : Neutral e.1) : Aligns Expr.Tidy (entry e) := by
  unfold entry
  split
  · rename_i c hc
    refine Expr.tidy_any (fun a ha => ?_) hc
    obtain ⟨v, -, rfl⟩ := List.mem_map.1 ha
    exact ⟨h, trivial⟩
  · rfl

theorem Tidy.aligns_expr {w : Where} (h : w.Tidy) : Aligns Expr.Tidy w.expr := by
  cases w with
  | condition e => exact h
  | raw text =>
    change Aligns Expr.Tidy (if _ then _ else _)
    split
    · rfl
    · exact h
  | mapping entries =>
    refine (Aligns.mapM fun e he => aligns_entry (h e he)).bind fun terms ht => ?_
    split
    · rename_i e he
      exact Expr.tidy_all ht he
    · rfl

theorem Tidy.aligns_check {w : Where} (h : w.Tidy) : Aligns Fragment.Exact w.check :=
  h.aligns_expr.bind fun _ he => Aligns.checked he.exact_render "where"

end Where

/-! ### Other clauses -/

namespace Join

/-- Names are neutral, and the condition is tidy. -/
structure Tidy (j : Join) : Prop where
  table : Neutral j.table
  common : ∀ n ∈ j.common, Neutral n
  on : ∀ e ∈ j.on, e.Tidy

theorem Tidy.neutral_names {j : Join} (h : j.Tidy) : ∀ n ∈ j.names, Neutral n :=
  List.forall_mem_cons.2 ⟨h.table, h.common⟩

theorem Tidy.aligns_check {j : Join} (h : j.Tidy) :
    ∀ r ∈ j.check, Aligns Fragment.Exact r := by
  intro r hr
  obtain ⟨e, he, rfl⟩ := Option.map_eq_some_iff.1 hr
  exact Aligns.checked (h.on e he).exact_render "join"

end Join

namespace CommonTable

/-- The name is neutral and the statement exact. -/
structure Tidy (c : CommonTable) : Prop where
  name : Neutral c.name
  statement : c.statement.Exact

theorem Tidy.aligns_check {c : CommonTable} (h : c.Tidy) : Aligns Fragment.Exact c.check :=
  Aligns.checked h.statement "with"

end CommonTable

namespace Assignment

/-- The column is neutral and the expression, if it is one, tidy. -/
def Tidy (a : Assignment) : Prop :=
  Neutral a.column ∧ match a.assigned with
    | .value _ => True
    | .expr e => e.Tidy

theorem aligns_right {a : Assignment} (h : a.Tidy) : Aligns Fragment.Exact (right a.assigned) := by
  obtain ⟨column, assigned⟩ := a
  cases assigned with
  | value v => exact Fragment.exact_placeholder v
  | expr e => exact Aligns.checked (Expr.Tidy.exact_render h.2) "set"

end Assignment

/-! ### Queries -/

namespace Select

/-- Every name is neutral and every condition tidy; nothing is said of common tables. -/
structure Tidy (q : Select) : Prop where
  names : ∀ n ∈ q.names, Neutral n
  joins : ∀ j ∈ q.joins, j.Tidy
  filter : ∀ w ∈ q.filter, w.Tidy

end Select

/-- Common tables that are tidy queries, built with common tables that are so again. -/
inductive SubSelects : List CommonTable → Prop where
  | nil : SubSelects []
  | cons {c : CommonTable} {rest : List CommonTable} {q : Select} (name : Neutral c.name)
    (tidy : q.Tidy) (tables : SubSelects q.tables) (built : q.statement.result = .ok c.statement)
    (others : SubSelects rest) : SubSelects (c :: rest)

namespace Draft

/-- Every name is neutral and every condition tidy, and each common table is such a query. -/
def Tidy : Draft → Prop
  | select q => q.Tidy ∧ SubSelects q.tables
  | update q => Neutral q.table ∧ (∀ a ∈ q.assignments, a.Tidy) ∧ (∀ w ∈ q.filter, w.Tidy) ∧
    SubSelects q.tables
  | delete q => Neutral q.table ∧ (∀ w ∈ q.filter, w.Tidy) ∧ SubSelects q.tables
  | fastInsert table _ options => Neutral table ∧ SubSelects options.tables
  | columnInsert table columns _ options | rowsInsert table columns _ options =>
    Neutral table ∧ (∀ n ∈ columns, Neutral n) ∧ SubSelects options.tables
  | boundInsert table b options =>
    Neutral table ∧ (∀ n ∈ b.columns, Neutral n) ∧ SubSelects options.tables
  | listsInsert table columns options =>
    Neutral table ∧ (∀ n ∈ columns.map Prod.fst, Neutral n) ∧ SubSelects options.tables

/-- With neutral names and exact checks, every segment is exact. -/
theorem aligns_layouts {d : Draft} (hn : ∀ n ∈ d.names, Neutral n)
    (hc : ∀ r ∈ d.checks, Aligns Fragment.Exact r) :
    Aligns (fun ls => ∀ l ∈ ls, Segment.AllExact l) d.layouts := by
  have hl := outcome_layouts (fun _ he => he) hn hc Placeholder.exact_list
  exact hl.imp fun ls hls l hm => Segment.allExact_of_allNeat (hls l hm)

end Draft

namespace Select.Tidy

variable {q : Select} (h : q.Tidy) (ht : ∀ c ∈ q.tables, c.Tidy)

include h ht

theorem neutral_names : ∀ n ∈ (Draft.select q).names, Neutral n := by
  simp only [Draft.names, List.forall_mem_append, List.forall_mem_map]
  refine ⟨⟨h.names, fun n hn => ?_⟩, fun c hc => (ht c hc).name⟩
  obtain ⟨j, hj, hm⟩ := List.mem_flatMap.1 hn
  exact (h.joins j hj).neutral_names n hm

theorem aligns_checks : ∀ r ∈ (Draft.select q).checks, Aligns Fragment.Exact r := by
  simp only [Draft.checks, List.forall_mem_append, List.forall_mem_map, Option.mem_toList]
  refine ⟨⟨fun r hr => ?_, fun w hw => (h.filter w hw).aligns_check⟩,
    fun c hc => (ht c hc).aligns_check⟩
  obtain ⟨j, hj, hjr⟩ := List.mem_filterMap.1 hr
  exact (h.joins j hj).aligns_check r hjr

end Select.Tidy

/-- **A built query is exact**, and so each common table that is one is tidy. -/
theorem SubSelects.tidy {tables : List CommonTable} (h : SubSelects tables) :
    ∀ c ∈ tables, c.Tidy := by
  induction h with
  | nil => exact fun c hc => absurd hc List.not_mem_nil
  | @cons c rest q hname hq _ hb _ ihq ihrest =>
    intro d hd
    rcases List.mem_cons.1 hd with rfl | hd
    · -- what is built from a tidy query is exact, and no more is asked of a common table
      rw [Select.result_statement] at hb
      obtain ⟨l, hl, he⟩ := map_eq_ok.1 hb
      have hs := Draft.aligns_layouts (hq.neutral_names ihq) (hq.aligns_checks ihq)
      rw [Draft.layouts, hl] at hs
      exact ⟨hname, he ▸ Segment.exact_join (hs l List.mem_cons_self)⟩
    · exact ihrest d hd

/-! ### Drafts -/

namespace Draft

theorem Tidy.neutral_names {d : Draft} (h : d.Tidy) : ∀ n ∈ d.names, Neutral n := by
  cases d with
  | select q => exact h.1.neutral_names h.2.tidy
  | update q =>
    obtain ⟨htable, ha, -, ht⟩ := h
    simp only [names, List.forall_mem_cons, List.forall_mem_append, List.forall_mem_map]
    exact ⟨htable, fun a hm => (ha a hm).1, fun c hc => (ht.tidy c hc).name⟩
  | delete q =>
    obtain ⟨htable, -, ht⟩ := h
    simp only [names, List.forall_mem_cons, List.forall_mem_map]
    exact ⟨htable, fun c hc => (ht.tidy c hc).name⟩
  | fastInsert table values options =>
    simp only [names, List.forall_mem_cons, List.forall_mem_map]
    exact ⟨h.1, fun c hc => (h.2.tidy c hc).name⟩
  | columnInsert | rowsInsert | boundInsert | listsInsert =>
    obtain ⟨htable, hn, ht⟩ := h
    simp only [names, List.forall_mem_cons, List.forall_mem_append]
    exact ⟨htable, hn, List.forall_mem_map.2 fun c hc => (ht.tidy c hc).name⟩

theorem Tidy.aligns_checks {d : Draft} (h : d.Tidy) :
    ∀ r ∈ d.checks, Aligns Fragment.Exact r := by
  cases d with
  | select q => exact h.1.aligns_checks h.2.tidy
  | update q =>
    obtain ⟨-, ha, hw, ht⟩ := h
    simp only [checks, List.forall_mem_append, List.forall_mem_map, Option.mem_toList]
    exact ⟨⟨fun a hm => Assignment.aligns_right (ha a hm), fun w hm => (hw w hm).aligns_check⟩,
      fun c hc => (ht.tidy c hc).aligns_check⟩
  | delete q =>
    obtain ⟨-, hw, ht⟩ := h
    simp only [checks, List.forall_mem_append, List.forall_mem_map, Option.mem_toList]
    exact ⟨fun w hm => (hw w hm).aligns_check, fun c hc => (ht.tidy c hc).aligns_check⟩
  | fastInsert table values options =>
    exact List.forall_mem_map.2 fun c hc => (h.2.tidy c hc).aligns_check
  | columnInsert | rowsInsert | boundInsert | listsInsert =>
    exact List.forall_mem_map.2 fun c hc => (h.2.2.tidy c hc).aligns_check

theorem Tidy.aligns_layouts {d : Draft} (h : d.Tidy) :
    Aligns (fun ls => ∀ l ∈ ls, Segment.AllExact l) d.layouts :=
  Draft.aligns_layouts h.neutral_names h.aligns_checks

/-- **Values stand where their placeholders are.**  A tidy draft fails for no number of
placeholders, and each statement built from it is its segments put together, with as many values in
front of each piece as there are placeholders. -/
theorem positions (d : Draft) (h : d.Tidy) :
    (∀ e, d.build.result = .error e → e.isMisaligned = false) ∧
      ∀ b, d.build.result = .ok b → ∃ ls, d.layouts = .ok ls ∧
        b.statements = ls.map Segment.join ∧ ∀ l ∈ ls, Segment.Positioned l := by
  have hs := statements_build d
  have hl := h.aligns_layouts
  -- the builder fails if and only if there is no layout, and with the same error
  cases hr : d.layouts with
  | error e =>
    rw [hr] at hs hl
    refine ⟨fun e' he' => ?_, fun b hb => ?_⟩
    · rw [he'] at hs
      cases hs
      exact hl
    · rw [hb] at hs
      cases hs
  | ok ls =>
    rw [hr] at hs hl
    refine ⟨fun e he => ?_, fun b hb => ⟨ls, rfl, ?_, fun l hm => ?_⟩⟩
    · rw [he] at hs
      cases hs
    · rw [hb] at hs
      exact Except.ok.inj hs
    · exact Segment.positioned_of_allExact (hl l hm)

/-- A query with a question mark in quotes. -/
def quotedQuery : Select :=
  { table := "l", columns := some (.one "u"),
    filter := some (.condition (.raw "n = '?' OR d = ?" [.integer 1])) }

/-- A query over `quotedQuery`. -/
def nestedQuery : Select :=
  { table := "a", columns := some .all,
    joins := [{ table := "b", on := some (.compare .gt (.column "b.x") (.bound (.integer 2))) }],
    tables := [⟨"a", ⟨"SELECT u FROM l WHERE (n = '?' OR d = ?)", [.integer 1]⟩⟩] }

/-- An update with `nestedQuery` in front. -/
def nestedUpdate : Update :=
  { table := "b",
    assignments := [⟨"s", .expr (.arithmetic .add (.column "s") (.bound (.integer 3)))⟩,
      ⟨"\"?\"", .value .null⟩],
    filter := some (.mapping [("x", .eq (.integer 4))]),
    tables := [⟨"c", ⟨"WITH a AS (SELECT u FROM l WHERE (n = '?' OR d = ?)) " ++
      "SELECT * FROM a INNER JOIN b ON b.x > ?", [.integer 1, .integer 2]⟩⟩] }

theorem tidy_nestedUpdate : (Draft.update nestedUpdate).Tidy := by
  have hquoted : quotedQuery.Tidy :=
    ⟨by decide, nofun, fun w hw => by cases hw; exact show Fragment.Exact _ by decide⟩
  have hnested : nestedQuery.Tidy := by
    refine ⟨by decide, fun j hj => ?_, nofun⟩
    rw [List.mem_singleton.1 hj]
    refine ⟨by decide, nofun, fun e he => ?_⟩
    cases he
    exact ⟨show Neutral _ by decide, trivial⟩
  have hlog : SubSelects nestedQuery.tables := .cons (by decide) hquoted .nil rfl .nil
  refine ⟨by decide, fun a ha => ?_, fun w hw => ?_, .cons (by decide) hnested hlog rfl .nil⟩
  · rcases List.mem_cons.1 ha with rfl | ha
    · exact ⟨by decide, show Neutral _ by decide, trivial⟩
    · rw [List.mem_singleton.1 ha]
      exact ⟨by decide, trivial⟩
  · cases hw
    exact show ∀ e ∈ [("x", Predicate.eq (.integer 4))], Neutral e.1 by decide

/-- What is built from `nestedUpdate`. -/
def nestedBatch : Batch where
  script := "WITH c AS (WITH a AS (SELECT u FROM l WHERE (n = '?' OR d = ?)) " ++
    "SELECT * FROM a INNER JOIN b ON b.x > ?) UPDATE b SET s = s + ?, \"?\" = ? WHERE (x = ?)"
  rows := [[.integer 1, .integer 2, .integer 3, .null, .integer 4]]

/-- Values stand in place behind two levels of common tables, quoted question marks included. -/
theorem positions_nestedUpdate :
    (Draft.update nestedUpdate).Tidy ∧
      (Draft.update nestedUpdate).build.result = .ok nestedBatch ∧
      ∃ ls, (Draft.update nestedUpdate).layouts = .ok ls ∧
        nestedBatch.statements = ls.map Segment.join ∧ ∀ l ∈ ls, Segment.Positioned l := by
  have hb : (Draft.update nestedUpdate).build.result = .ok nestedBatch := rfl
  exact ⟨tidy_nestedUpdate, hb, (positions (.update nestedUpdate) tidy_nestedUpdate).2 _ hb⟩

end Draft

end BoundSql
