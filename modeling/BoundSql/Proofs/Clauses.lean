import BoundSql.Proofs.Exact
import BoundSql.Proofs.Layout

/-!
# Names and checks

The segments of a statement have two sources.  Its texts are made of keywords and names
(`Draft.names`); its pieces are fragments that have passed a check, or single placeholders
(`Draft.checks`), and the list of placeholders of an insert.  `Draft.outcome_layouts` is the main
statement: whatever is asked of pieces, if the names are neutral and the checks give it, every
segment has it.
-/

namespace BoundSql

open Placeholder (Neutral)

/-! ### Outcomes -/

/-- The error is about a number of placeholders. -/
def Error.isMisaligned : Error → Bool
  | .clause _ (.misaligned _ _) => true
  | _ => false

/-- A result with `P`, or an error with `E`. -/
def Outcome {α : Type} (E : Error → Prop) (P : α → Prop) : Except Error α → Prop
  | .ok a => P a
  | .error e => E e

namespace Outcome

variable {α β : Type} {E : Error → Prop} {P : α → Prop} {Q : β → Prop}

theorem bind {r : Except Error α} (hr : Outcome E P r) {f : α → Except Error β}
    (hf : ∀ a, P a → Outcome E Q (f a)) : Outcome E Q (r >>= f) := by
  cases r with
  | ok a => exact hf a hr
  | error e => exact hr

theorem imp {P' : α → Prop} {r : Except Error α} (hr : Outcome E P r) (h : ∀ a, P a → P' a) :
    Outcome E P' r := by
  cases r with
  | ok a => exact h a hr
  | error e => exact hr

theorem map {r : Except Error α} (hr : Outcome E P r) {f : α → β} (hf : ∀ a, P a → Q (f a)) :
    Outcome E Q (f <$> r) := by
  cases r with
  | ok a => exact hf a hr
  | error e => exact hr

theorem mapM {l : List α} {f : α → Except Error β} (h : ∀ a ∈ l, Outcome E Q (f a)) :
    Outcome E (fun bs => ∀ b ∈ bs, Q b) (l.mapM f) := by
  induction l with
  | nil => exact fun b hb => absurd hb List.not_mem_nil
  | cons a l ih =>
    rw [List.mapM_cons]
    refine (h a List.mem_cons_self).bind fun b hb => ?_
    refine (ih fun c hc => h c (List.mem_cons_of_mem a hc)).bind fun bs hbs => ?_
    exact List.forall_mem_cons.2 ⟨hb, hbs⟩

end Outcome

/-! ### Segments -/

namespace Segment

/-- A neutral text, or a piece with `Q`. -/
def Neat (Q : Fragment → Prop) : Segment → Prop
  | text s => Neutral s
  | piece f => Q f

/-- All segments are neat. -/
def AllNeat (Q : Fragment → Prop) (l : List Segment) : Prop := ∀ s ∈ l, s.Neat Q

variable {Q : Fragment → Prop}

theorem allNeat_nil : AllNeat Q [] := fun _ hs => absurd hs List.not_mem_nil

theorem AllNeat.text {s : String} {l : List Segment} (hs : Neutral s) (hl : AllNeat Q l) :
    AllNeat Q (.text s :: l) :=
  List.forall_mem_cons.2 ⟨hs, hl⟩

theorem AllNeat.piece {f : Fragment} {l : List Segment} (hf : Q f) (hl : AllNeat Q l) :
    AllNeat Q (.piece f :: l) :=
  List.forall_mem_cons.2 ⟨hf, hl⟩

theorem AllNeat.append {l m : List Segment} (hl : AllNeat Q l) (hm : AllNeat Q m) :
    AllNeat Q (l ++ m) :=
  List.forall_mem_append.2 ⟨hl, hm⟩

theorem AllNeat.flatten {ls : List (List Segment)} (h : ∀ l ∈ ls, AllNeat Q l) :
    AllNeat Q ls.flatten := by
  intro s hs
  obtain ⟨l, hl, hsl⟩ := List.mem_flatten.1 hs
  exact h l hl s hsl

theorem AllNeat.intercalate {separator : String} (hs : Neutral separator)
    {ls : List (List Segment)} (h : ∀ l ∈ ls, AllNeat Q l) :
    AllNeat Q ([Segment.text separator].intercalate ls) := by
  induction ls with
  | nil => exact allNeat_nil
  | cons l ls ih =>
    have hl := h l List.mem_cons_self
    have hrest := ih fun m hm => h m (List.mem_cons_of_mem l hm)
    cases ls with
    | nil => rwa [List.intercalate_singleton]
    | cons m ls =>
      rw [List.intercalate_cons_cons]
      exact (hl.append (allNeat_nil.text hs)).append hrest

end Segment

/-! ### Clauses -/

namespace Columns

/-- The names of columns in a list. -/
def names : Columns → List String
  | all => []
  | one name => [name]
  | many names => names

end Columns

namespace OrderBy

/-- The names in an order. -/
def names : OrderBy → List String
  | column name => [name]
  | position _ => []
  | columns names => names
  | directions terms => terms.map Prod.fst

end OrderBy

namespace Join

/-- The names in a join, those in its condition apart. -/
def names (j : Join) : List String := j.table :: j.common

/-- The check of its condition, if there is one. -/
def check (j : Join) : Option (Except Error Fragment) :=
  j.on.map fun e => e.render.checked "join"

end Join

namespace Where

/-- The check of a filter. -/
def check (w : Where) : Except Error Fragment := do
  let e ← w.expr
  e.render.checked "where"

end Where

namespace CommonTable

/-- The check of the statement. -/
def check (c : CommonTable) : Except Error Fragment := c.statement.checked "with"

end CommonTable

section

variable {E : Error → Prop} (hE : ∀ e, e.isMisaligned = false → E e) {Q : Fragment → Prop}

include hE

theorem Columns.outcome_sql {cs : Columns} (h : ∀ n ∈ cs.names, Neutral n) :
    Outcome E Neutral cs.sql := by
  cases cs with
  | all => exact show Neutral "*" by decide
  | one name => exact h name List.mem_cons_self
  | many names =>
    cases names with
    | nil => exact hE _ rfl
    | cons n ns => exact Neutral.intercalate (by decide) h

theorem OrderBy.outcome_terms {o : OrderBy} (h : ∀ n ∈ o.names, Neutral n) :
    Outcome E Neutral o.terms := by
  cases o with
  | column name => exact h name List.mem_cons_self
  | position p =>
    cases p with
    | zero => exact hE _ rfl
    | succ p => exact Placeholder.neutral_toString (p + 1)
  | columns names =>
    cases names with
    | nil => exact hE _ rfl
    | cons n ns => exact Neutral.intercalate (by decide) h
  | directions terms =>
    cases terms with
    | nil => exact hE _ rfl
    | cons t ts =>
      refine Neutral.intercalate (by decide) fun s hs => ?_
      obtain ⟨u, hu, rfl⟩ := List.mem_map.1 hs
      have hn : Neutral u.1 := h u.1 (List.mem_map_of_mem hu)
      have hd : Neutral u.2.sql := by cases u.2 <;> decide
      exact (hn.append (by decide)).append hd

theorem OrderBy.outcome_segments {o : Option OrderBy} (h : ∀ b ∈ o, ∀ n ∈ b.names, Neutral n) :
    Outcome E (Segment.AllNeat Q) (segments o) := by
  cases o with
  | none => exact Segment.allNeat_nil
  | some o =>
    refine (outcome_terms hE (h o rfl)).bind fun ts hts => ?_
    have hs : Neutral " ORDER BY " := by decide
    exact Segment.allNeat_nil.text (hs.append hts)

theorem Join.outcome_segments {j : Join} (hn : ∀ n ∈ j.names, Neutral n)
    (hc : ∀ r ∈ j.check, Outcome E Q r) : Outcome E (Segment.AllNeat Q) j.segments := by
  have hm : Neutral j.method.sql := by cases j.method <;> decide
  have hs : Neutral " " := by decide
  have hh : Neutral (" " ++ j.method.sql ++ " " ++ j.table) :=
    ((hs.append hm).append hs).append (hn j.table List.mem_cons_self)
  unfold segments
  split
  · exact hE _ rfl
  · rename_i e he _
    have hchecked : Outcome E Q (e.render.checked "join") :=
      hc _ (Option.mem_map_of_mem _ he)
    refine hchecked.bind fun f hf => ?_
    exact .text hh (.text (by decide) (Segment.allNeat_nil.piece hf))
  · exact Segment.allNeat_nil.text hh
  · have hu : Neutral " USING (" := by decide
    have hcommon : Neutral (", ".intercalate j.common) :=
      Neutral.intercalate (by decide) fun n hm => hn n (List.mem_cons_of_mem _ hm)
    exact .text hh (Segment.allNeat_nil.text ((hu.append hcommon).append (by decide)))

omit hE in
theorem Where.outcome_segments {w : Option Where} (hc : ∀ f ∈ w, Outcome E Q f.check) :
    Outcome E (Segment.AllNeat Q) (segments w) := by
  cases w with
  | none => exact Segment.allNeat_nil
  | some w =>
    have hs : segments (some w) = w.check >>= fun f =>
        pure [.text " WHERE ", .text "(", .piece f, .text ")"] := by
      simp only [segments, check, bind_assoc]
    rw [hs]
    refine (hc w rfl).bind fun f hf => ?_
    refine Segment.AllNeat.text (by decide) (.text (by decide) (.piece hf ?_))
    exact Segment.allNeat_nil.text (by decide)

omit hE in
theorem CommonTable.outcome_segments {tables : List CommonTable}
    (hn : ∀ c ∈ tables, Neutral c.name) (hc : ∀ c ∈ tables, Outcome E Q c.check) :
    Outcome E (Segment.AllNeat Q) (segments tables) := by
  have hd : ∀ c ∈ tables, Outcome E (Segment.AllNeat Q) c.definitionSegments := by
    intro c hm
    refine (hc c hm).bind fun f hf => ?_
    refine .text ((hn c hm).append (by decide)) (.text (by decide) ?_)
    exact .piece hf (Segment.allNeat_nil.text (by decide))
  refine (Outcome.mapM hd).bind fun ds hds => ?_
  change Segment.AllNeat Q (if _ then _ else _)
  split
  · exact Segment.allNeat_nil
  · refine .text (by decide) (.append (.intercalate (by decide) hds) ?_)
    exact Segment.allNeat_nil.text (by decide)

theorem Assignment.outcome_segments {assignments : List Assignment}
    (hn : ∀ a ∈ assignments, Neutral a.column)
    (hc : ∀ a ∈ assignments, Outcome E Q (right a.assigned)) :
    Outcome E (Segment.AllNeat Q) (segments assignments) := by
  have he : ∀ a ∈ assignments, Outcome E (Segment.AllNeat Q) a.entrySegments := by
    intro a ha
    refine (hc a ha).bind fun f hf => ?_
    exact .text ((hn a ha).append (by decide)) (Segment.allNeat_nil.piece hf)
  unfold segments
  split
  · exact hE _ rfl
  · refine (Outcome.mapM he).bind fun es hes => ?_
    exact .text (by decide) (.intercalate (by decide) hes)

end

theorem neutral_limitClause (limit : Option Nat) (offsetFollows : Bool) :
    Neutral (limitClause limit offsetFollows).script := by
  have hs : Neutral " LIMIT " := by decide
  cases limit with
  | some n => exact hs.append (Placeholder.neutral_toString n)
  | none => cases offsetFollows <;> decide

theorem neutral_offsetClause (offset : Option Nat) : Neutral (offsetClause offset).script := by
  have hs : Neutral " OFFSET " := by decide
  cases offset with
  | some n => exact hs.append (Placeholder.neutral_toString n)
  | none => decide

/-! ### Statements -/

namespace Select

/-- The names of a query, those in its conditions and common tables apart. -/
def names (q : Select) : List String :=
  q.table :: (q.columns.elim [] Columns.names ++ q.orderBy.elim [] OrderBy.names)

end Select

theorem Update.neutral_target {table : String} (h : Neutral table)
    (onConflict : Option OnConflict) : Neutral (target onConflict table).script := by
  have hu : Neutral "UPDATE " := by decide
  have hor : ∀ o : OnConflict, Neutral ("UPDATE OR " ++ o.sql ++ " ") := by
    intro o
    cases o <;> decide
  cases onConflict with
  | none => exact hu.append h
  | some o => exact (hor o).append h

theorem Insert.neutral_target {table : String} (h : Neutral table) (verb : InsertVerb)
    (onConflict : Option OnConflict) {columns : Option (List String)}
    (hc : ∀ n ∈ columns.getD [], Neutral n) : Neutral (target table verb onConflict columns) := by
  have hverb : Neutral verb.sql := by cases verb <;> decide
  have hor : ∀ o : OnConflict, Neutral (" OR " ++ o.sql) := by
    intro o
    cases o <;> decide
  have hinto : Neutral " INTO " := by decide
  unfold target
  refine .append (.append (.append (.append (hverb.append ?_) hinto) h) ?_) (by decide)
  · split
    · exact hor _
    · decide
  · split
    · rename_i cs
      have hopen : Neutral " (" := by decide
      exact (hopen.append (.intercalate (by decide) hc)).append (by decide)
    · decide

section

variable {E : Error → Prop} (hE : ∀ e, e.isMisaligned = false → E e) {Q : Fragment → Prop}

include hE

theorem Select.outcome_segments {q : Select} (hn : ∀ n ∈ q.names, Neutral n)
    (hj : ∀ j ∈ q.joins, Outcome E (Segment.AllNeat Q) j.segments)
    (hw : Outcome E (Segment.AllNeat Q) (Where.segments q.filter))
    (ht : Outcome E (Segment.AllNeat Q) (CommonTable.segments q.tables)) :
    Outcome E (Segment.AllNeat Q) q.segments := by
  unfold Select.names at hn
  have hs : Neutral " " := by decide
  have hf : Neutral " FROM " := by decide
  have hm : Neutral q.method.sql := by cases q.method <;> decide
  have htable : Neutral q.table := hn q.table List.mem_cons_self
  have hlist : Outcome E Neutral (list q.columns) := by
    cases hc : q.columns with
    | none => exact show Neutral "*" by decide
    | some cs =>
      refine Columns.outcome_sql hE fun n hm => hn n ?_
      rw [hc]
      exact List.mem_cons_of_mem _ (List.mem_append_left _ hm)
  have horder : Outcome E (Segment.AllNeat Q) (OrderBy.segments q.orderBy) := by
    refine OrderBy.outcome_segments hE fun o ho n hm => hn n ?_
    rw [Option.mem_def.1 ho]
    exact List.mem_cons_of_mem _ (List.mem_append_right _ hm)
  refine hlist.bind fun list hlist => (Outcome.mapM hj).bind fun joins hjoins => ?_
  refine hw.bind fun filter hfilter => horder.bind fun order horder => ?_
  refine ht.bind fun tables htables => ?_
  refine htables.append (.text ((((hm.append hs).append hlist).append hf).append htable) ?_)
  refine (((Segment.AllNeat.flatten hjoins).append hfilter).append horder).append ?_
  refine .text (neutral_limitClause q.limit q.offset.isSome) ?_
  exact Segment.allNeat_nil.text (neutral_offsetClause q.offset)

omit hE in
theorem Update.outcome_segments {q : Update} (hn : Neutral q.table)
    (ha : Outcome E (Segment.AllNeat Q) (Assignment.segments q.assignments))
    (hw : Outcome E (Segment.AllNeat Q) (Where.segments q.filter))
    (ht : Outcome E (Segment.AllNeat Q) (CommonTable.segments q.tables)) :
    Outcome E (Segment.AllNeat Q) q.segments := by
  refine ha.bind fun assignments hassignments => hw.bind fun filter hfilter => ?_
  refine ht.bind fun tables htables => ?_
  exact htables.append (.text (neutral_target hn q.onConflict) (hassignments.append hfilter))

omit hE in
theorem Delete.outcome_segments {q : Delete} (hn : Neutral q.table)
    (hw : Outcome E (Segment.AllNeat Q) (Where.segments q.filter))
    (ht : Outcome E (Segment.AllNeat Q) (CommonTable.segments q.tables)) :
    Outcome E (Segment.AllNeat Q) q.segments := by
  have hd : Neutral "DELETE FROM " := by decide
  refine hw.bind fun filter hfilter => ht.bind fun tables htables => ?_
  exact htables.append (.text (hd.append hn) hfilter)

theorem Insert.outcome_frame {table : String} (hn : Neutral table)
    (columns : Option (List String)) (hc : ∀ n ∈ columns.getD [], Neutral n) (arity : Nat)
    {options : InsertOptions}
    (ht : Outcome E (Segment.AllNeat Q) (CommonTable.segments options.tables))
    (hv : ∀ values : Row, values.length = arity → Q ⟨Placeholder.list arity, values⟩) :
    Outcome E (fun f => ∀ values : Row, values.length = arity → Segment.AllNeat Q (f values))
      (frame table columns arity options) := by
  have hhead : Outcome E (fun _ => True)
      (head table options.verb options.onConflict columns arity) := by
    unfold head
    split
    · exact hE _ rfl
    · split
      · exact hE _ rfl
      · trivial
  refine hhead.bind fun _ _ => ht.bind fun tables htables => ?_
  intro values hlen
  refine htables.append ?_
  refine .text (neutral_target hn options.verb options.onConflict hc) (.piece (hv values hlen) ?_)
  exact Segment.allNeat_nil.text (by decide)

end

/-! ### Drafts -/

namespace Draft

/-- The names of a draft, those in its conditions apart. -/
def names : Draft → List String
  | select q => q.names ++ q.joins.flatMap Join.names ++ q.tables.map CommonTable.name
  | update q => q.table :: (q.assignments.map Assignment.column ++ q.tables.map CommonTable.name)
  | delete q => q.table :: q.tables.map CommonTable.name
  | fastInsert table _ options => table :: options.tables.map CommonTable.name
  | columnInsert table columns _ options | rowsInsert table columns _ options =>
    table :: (columns ++ options.tables.map CommonTable.name)
  | boundInsert table b options => table :: (b.columns ++ options.tables.map CommonTable.name)
  | listsInsert table columns options =>
    table :: (columns.map Prod.fst ++ options.tables.map CommonTable.name)

/-- The checks of what a caller gives for a draft: conditions, filters, assignments, and the
statements of common tables. -/
def checks : Draft → List (Except Error Fragment)
  | select q => q.joins.filterMap Join.check ++ q.filter.toList.map Where.check ++
    q.tables.map CommonTable.check
  | update q => q.assignments.map (fun a => Assignment.right a.assigned) ++
    q.filter.toList.map Where.check ++ q.tables.map CommonTable.check
  | delete q => q.filter.toList.map Where.check ++ q.tables.map CommonTable.check
  | fastInsert _ _ options | columnInsert _ _ _ options | rowsInsert _ _ _ options
  | boundInsert _ _ options | listsInsert _ _ options => options.tables.map CommonTable.check

variable {E : Error → Prop} {Q : Fragment → Prop}

/-- One layout, with every segment neat. -/
theorem outcome_singleton {α : Type} {P : α → Prop} {r : Except Error α} (hr : Outcome E P r)
    {f : α → List Segment} (hf : ∀ a, P a → Segment.AllNeat Q (f a)) :
    Outcome E (fun ls => ∀ l ∈ ls, Segment.AllNeat Q l) ((fun a => [f a]) <$> r) :=
  hr.map fun a ha => List.forall_mem_singleton.2 (hf a ha)

section

variable (hE : ∀ e, e.isMisaligned = false → E e)

include hE

theorem outcome_select {q : Select} (hn : ∀ n ∈ (select q).names, Neutral n)
    (hc : ∀ r ∈ (select q).checks, Outcome E Q r) :
    Outcome E (fun ls => ∀ l ∈ ls, Segment.AllNeat Q l) (select q).layouts := by
  simp only [names, checks, List.forall_mem_append, List.forall_mem_map] at hn hc
  obtain ⟨⟨hnames, hjoins⟩, htables⟩ := hn
  obtain ⟨⟨hon, hfilter⟩, hstatements⟩ := hc
  refine outcome_singleton (Select.outcome_segments hE hnames (fun j hj => ?_) ?_ ?_)
    fun l hl => hl
  · refine Join.outcome_segments hE (fun n hm => hjoins n (List.mem_flatMap_of_mem hj hm)) ?_
    exact fun r hr => hon r (List.mem_filterMap.2 ⟨j, hj, hr⟩)
  · exact Where.outcome_segments fun f hf => hfilter f (Option.mem_toList.2 hf)
  · exact CommonTable.outcome_segments htables hstatements

theorem outcome_update {q : Update} (hn : ∀ n ∈ (update q).names, Neutral n)
    (hc : ∀ r ∈ (update q).checks, Outcome E Q r) :
    Outcome E (fun ls => ∀ l ∈ ls, Segment.AllNeat Q l) (update q).layouts := by
  simp only [names, checks, List.forall_mem_cons, List.forall_mem_append, List.forall_mem_map]
    at hn hc
  obtain ⟨htable, hcolumns, htables⟩ := hn
  obtain ⟨⟨hright, hfilter⟩, hstatements⟩ := hc
  refine outcome_singleton (Update.outcome_segments htable ?_ ?_ ?_) fun l hl => hl
  · exact Assignment.outcome_segments hE hcolumns hright
  · exact Where.outcome_segments fun f hf => hfilter f (Option.mem_toList.2 hf)
  · exact CommonTable.outcome_segments htables hstatements

omit hE in
theorem outcome_delete {q : Delete} (hn : ∀ n ∈ (delete q).names, Neutral n)
    (hc : ∀ r ∈ (delete q).checks, Outcome E Q r) :
    Outcome E (fun ls => ∀ l ∈ ls, Segment.AllNeat Q l) (delete q).layouts := by
  simp only [names, checks, List.forall_mem_cons, List.forall_mem_append, List.forall_mem_map]
    at hn hc
  refine outcome_singleton (Delete.outcome_segments hn.1 ?_ ?_) fun l hl => hl
  · exact Where.outcome_segments fun f hf => hc.1 f (Option.mem_toList.2 hf)
  · exact CommonTable.outcome_segments hn.2 hc.2

variable {table : String} {options : InsertOptions}
  (hv : ∀ values : Row, Q ⟨Placeholder.list values.length, values⟩)

include hv

/-- The frame of an insert into some of the columns that its draft names. -/
theorem outcome_frame {given : List String}
    (hn : ∀ n ∈ table :: (given ++ options.tables.map CommonTable.name), Neutral n)
    (hc : ∀ r ∈ options.tables.map CommonTable.check, Outcome E Q r)
    (columns : Option (List String)) (hcolumns : ∀ n ∈ columns.getD [], n ∈ given) (arity : Nat) :
    Outcome E (fun f => ∀ values : Row, values.length = arity → Segment.AllNeat Q (f values))
      (Insert.frame table columns arity options) := by
  simp only [List.forall_mem_cons, List.forall_mem_append, List.forall_mem_map] at hn hc
  obtain ⟨htable, hgiven, htables⟩ := hn
  exact Insert.outcome_frame hE htable columns (fun n hm => hgiven n (hcolumns n hm)) arity
    (CommonTable.outcome_segments htables hc) fun values h => h ▸ hv values

theorem outcome_fastInsert {values : List Value}
    (hn : ∀ n ∈ (fastInsert table values options).names, Neutral n)
    (hc : ∀ r ∈ (fastInsert table values options).checks, Outcome E Q r) :
    Outcome E (fun ls => ∀ l ∈ ls, Segment.AllNeat Q l)
      (fastInsert table values options).layouts := by
  have hnames : ∀ n ∈ table :: ([] ++ options.tables.map CommonTable.name), Neutral n := hn
  have hf := outcome_frame hE hv hnames hc none (fun n hm => hm) values.length
  exact outcome_singleton hf fun f hf => hf values rfl

theorem outcome_columnInsert {columns : List String} {values : List Value}
    (hn : ∀ n ∈ (columnInsert table columns values options).names, Neutral n)
    (hc : ∀ r ∈ (columnInsert table columns values options).checks, Outcome E Q r) :
    Outcome E (fun ls => ∀ l ∈ ls, Segment.AllNeat Q l)
      (columnInsert table columns values options).layouts := by
  let keep := min columns.length values.length
  have hf := outcome_frame hE hv hn hc (some (columns.take keep))
    (fun n hm => List.mem_of_mem_take hm) (columns.take keep).length
  -- columns and values are cut to one length
  refine outcome_singleton hf fun f hf => hf (values.take keep) ?_
  rw [List.length_take, List.length_take]
  omega

theorem outcome_boundInsert {b : Bindings}
    (hn : ∀ n ∈ (boundInsert table b options).names, Neutral n)
    (hc : ∀ r ∈ (boundInsert table b options).checks, Outcome E Q r) :
    Outcome E (fun ls => ∀ l ∈ ls, Segment.AllNeat Q l) (boundInsert table b options).layouts := by
  have hf := outcome_frame hE hv hn hc (some b.columns) (fun n hm => hm) b.columns.length
  refine outcome_singleton hf fun f hf => hf b.values ?_
  rw [Bindings.values, Bindings.columns, List.length_map, List.length_map]

theorem outcome_rowsInsert {columns : List String} {rows : List Row}
    (hn : ∀ n ∈ (rowsInsert table columns rows options).names, Neutral n)
    (hc : ∀ r ∈ (rowsInsert table columns rows options).checks, Outcome E Q r) :
    Outcome E (fun ls => ∀ l ∈ ls, Segment.AllNeat Q l)
      (rowsInsert table columns rows options).layouts := by
  let targets := columns.take (Reconcile.widest rows)
  have hf := outcome_frame hE hv hn hc (some targets) (fun n hm => List.mem_of_mem_take hm)
    targets.length
  change Outcome _ _ (if _ then _ else _)
  split
  · exact hE _ rfl
  · refine hf.map fun f hf l hl => ?_
    obtain ⟨row, hrow, rfl⟩ := List.mem_map.1 hl
    obtain ⟨row, -, rfl⟩ := List.mem_map.1 hrow
    exact hf _ (Reconcile.length_fit targets.length row)

theorem outcome_listsInsert {columns : List (String × List Value)}
    (hn : ∀ n ∈ (listsInsert table columns options).names, Neutral n)
    (hc : ∀ r ∈ (listsInsert table columns options).checks, Outcome E Q r) :
    Outcome E (fun ls => ∀ l ∈ ls, Segment.AllNeat Q l)
      (listsInsert table columns options).layouts := by
  have hf := outcome_frame hE hv hn hc (some (columns.map Prod.fst)) (fun n hm => hm)
    (columns.map Prod.fst).length
  change Outcome _ _ (if _ then _ else _)
  split
  · exact hE _ rfl
  · refine hf.map fun f hf l hl => ?_
    obtain ⟨row, hrow, rfl⟩ := List.mem_map.1 hl
    obtain ⟨i, -, rfl⟩ := List.mem_map.1 hrow
    -- a row has a value of each column
    refine hf _ ?_
    rw [List.length_map, List.length_map]

end

/-- **Every segment comes from a name or from a check.** -/
theorem outcome_layouts (hE : ∀ e, e.isMisaligned = false → E e) {d : Draft}
    (hn : ∀ n ∈ d.names, Neutral n) (hc : ∀ r ∈ d.checks, Outcome E Q r)
    (hv : ∀ values : Row, Q ⟨Placeholder.list values.length, values⟩) :
    Outcome E (fun ls => ∀ l ∈ ls, Segment.AllNeat Q l) d.layouts := by
  cases d with
  | select q => exact outcome_select hE hn hc
  | update q => exact outcome_update hE hn hc
  | delete q => exact outcome_delete hn hc
  | fastInsert table values options => exact outcome_fastInsert hE hv hn hc
  | columnInsert table columns values options => exact outcome_columnInsert hE hv hn hc
  | boundInsert table b options => exact outcome_boundInsert hE hv hn hc
  | rowsInsert table columns rows options => exact outcome_rowsInsert hE hv hn hc
  | listsInsert table columns options => exact outcome_listsInsert hE hv hn hc

end Draft

end BoundSql
