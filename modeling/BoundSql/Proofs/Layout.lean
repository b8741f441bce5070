import BoundSql.Proofs.Draft
import Mathlib.Tactic.SplitIfs

/-!
# Layouts

The text of a statement consists of *segments*: text that binds nothing, and pieces that bind
values.  The pieces are the common tables, the conditions of joins, what is assigned to columns, the
list of values of a row, and the filter.  `Draft.layouts` gives the segments of each statement of a
draft, in order and with the same errors as the builder, and `Draft.statements_build` says that a
statement is its segments put together.
-/

namespace BoundSql

/-- A part of a statement. -/
inductive Segment where
  /-- Text that binds nothing. -/
  | text (s : String)
  /-- Text that binds values. -/
  | piece (f : Fragment)
deriving DecidableEq, Repr

namespace Segment

/-- The text of a segment with its values. -/
def fragment : Segment → Fragment
  | text s => .text s
  | piece f => f

/-- Segments put together. -/
def join (segments : List Segment) : Fragment :=
  segments.foldr (fun s f => s.fragment ++ f) .empty

@[simp] theorem join_nil : join [] = .empty := rfl

@[simp] theorem join_cons (s : Segment) (segments : List Segment) :
    join (s :: segments) = s.fragment ++ join segments := rfl

@[simp] theorem fragment_text (s : String) : (text s).fragment = .text s := rfl

@[simp] theorem fragment_piece (f : Fragment) : (piece f).fragment = f := rfl

@[simp] theorem join_append (l m : List Segment) : join (l ++ m) = join l ++ join m := by
  induction l with
  | nil => simp only [List.nil_append, join_nil, Fragment.empty_append]
  | cons s l ih => simp only [List.cons_append, join_cons, ih, Fragment.append_assoc]

theorem join_intercalate (separator : String) (ls : List (List Segment)) :
    join ([text separator].intercalate ls) = Fragment.joined separator (ls.map join) := by
  induction ls with
  | nil => rfl
  | cons l ls ih =>
    cases ls with
    | nil => simp only [List.intercalate_singleton, List.map_cons, List.map_nil, Fragment.joined]
    | cons m ls =>
      simp only [List.intercalate_cons_cons, join_append, ih, List.map_cons, Fragment.joined,
        join_cons, join_nil, fragment_text, Fragment.append_empty]

theorem join_flatten (ls : List (List Segment)) :
    join ls.flatten = Fragment.joined "" (ls.map join) := by
  rw [← join_intercalate]
  induction ls with
  | nil => rfl
  | cons l ls ih =>
    cases ls with
    | nil => simp only [List.flatten_cons, List.flatten_nil, List.append_nil,
        List.intercalate_singleton]
    | cons m ls =>
      have he : Fragment.text "" = .empty := rfl
      rw [List.flatten_cons, join_append, ih, List.intercalate_cons_cons, join_append, join_append,
        join_cons, fragment_text, he, join_nil, Fragment.empty_append, Fragment.append_empty]

end Segment

/-! ### Clauses -/

namespace CommonTable

/-- The segments of the definition of one name. -/
def definitionSegments (c : CommonTable) : Except Error (List Segment) := do
  let f ← c.statement.checked "with"
  return [.text (c.name ++ " AS "), .text "(", .piece f, .text ")"]

/-- The segments in front of a statement, none without names. -/
def segments (tables : List CommonTable) : Except Error (List Segment) := do
  let definitions ← tables.mapM definitionSegments
  return if tables.isEmpty then []
    else .text "WITH " :: [.text ", "].intercalate definitions ++ [.text " "]

theorem definition_eq (c : CommonTable) :
    c.definition = Segment.join <$> c.definitionSegments := by
  simp only [definition, definitionSegments, map_bind, map_pure, Segment.join_cons,
    Segment.fragment_text, Segment.fragment_piece, Segment.join_nil, Fragment.append_empty,
    Fragment.parenthesized, Fragment.append_assoc]

theorem header_eq (tables : List CommonTable) :
    header tables = Segment.join <$> segments tables := by
  simp only [header, segments, funext definition_eq, mapM_map_result, map_bind, bind_map_left,
    map_pure]
  congr 1
  funext definitions
  congr 1
  split
  · rfl
  · simp only [Segment.join_append, Segment.join_cons, Segment.join_intercalate,
      Segment.fragment_text, Segment.join_nil, Fragment.append_empty]

/-- The segments of a statement with names in front. -/
theorem before_join (tables : List CommonTable) (l : List Segment) :
    before tables (Segment.join l) = do
      let w ← segments tables
      return Segment.join (w ++ l) := by
  rw [before, header_eq, bind_map_left]
  simp only [Segment.join_append]

end CommonTable

namespace Join

/-- The segments of one join. -/
def segments (j : Join) : Except Error (List Segment) :=
  let head := " " ++ j.method.sql ++ " " ++ j.table
  match j.on, j.common with
  | some _, _ :: _ => .error (.clause "join" .onAndUsing)
  | some e, [] => do
    let f ← e.render.checked "join"
    return [.text head, .text " ON ", .piece f]
  | none, [] => .ok [.text head]
  | none, columns => .ok [.text head, .text (" USING (" ++ ", ".intercalate columns ++ ")")]

theorem clause_eq (j : Join) : j.clause = Segment.join <$> j.segments := by
  obtain ⟨table, method, on, common⟩ := j
  cases on with
  | none =>
    cases common with
    | nil => exact congrArg Except.ok (Fragment.append_empty _).symm
    | cons c cs =>
      refine congrArg Except.ok ?_
      simp only [Segment.join_cons, Segment.fragment_text, Segment.join_nil, Fragment.append_empty]
  | some e =>
    cases common with
    | nil =>
      simp only [clause, segments, map_bind, map_pure, Segment.join_cons, Segment.fragment_text,
        Segment.fragment_piece, Segment.join_nil, Fragment.append_empty, Fragment.append_assoc]
    | cons c cs => rfl

theorem clauses_eq (joins : List Join) :
    clauses joins = (fun l => Segment.join l.flatten) <$> joins.mapM segments := by
  rw [clauses, funext clause_eq, mapM_map_result, bind_map_left, map_eq_pure_bind]
  simp only [Segment.join_flatten]

end Join

namespace Where

/-- The segments of a filter, none without one. -/
def segments : Option Where → Except Error (List Segment)
  | none => .ok []
  | some w => do
    let e ← w.expr
    let f ← e.render.checked "where"
    return [.text " WHERE ", .text "(", .piece f, .text ")"]

theorem clause_eq (w : Option Where) : clause w = Segment.join <$> segments w := by
  cases w with
  | none => rfl
  | some w =>
    simp only [clause, segments, map_bind, map_pure, Segment.join_cons, Segment.fragment_text,
      Segment.fragment_piece, Segment.join_nil, Fragment.append_empty, Fragment.parenthesized,
      Fragment.append_assoc]

end Where

namespace Assignment

/-- The segments of one assignment. -/
def entrySegments (a : Assignment) : Except Error (List Segment) := do
  let f ← right a.assigned
  return [.text (a.column ++ " = "), .piece f]

/-- The segments of assignments, of which there must be one. -/
def segments (assignments : List Assignment) : Except Error (List Segment) :=
  if assignments.isEmpty then .error (.noData "update")
  else do
    let entries ← assignments.mapM entrySegments
    return .text " SET " :: [.text ", "].intercalate entries

theorem entry_eq (a : Assignment) : a.entry = Segment.join <$> a.entrySegments := by
  simp only [entry, entrySegments, map_bind, map_pure, Segment.join_cons, Segment.fragment_text,
    Segment.fragment_piece, Segment.join_nil, Fragment.append_empty]

theorem clause_eq (assignments : List Assignment) :
    clause assignments = Segment.join <$> segments assignments := by
  unfold clause segments
  split
  · rfl
  · simp only [funext entry_eq, mapM_map_result, map_bind, bind_map_left, map_pure,
      Segment.join_cons, Segment.join_intercalate, Segment.fragment_text]

end Assignment

namespace OrderBy

/-- The segments of an order, none without one. -/
def segments : Option OrderBy → Except Error (List Segment)
  | none => .ok []
  | some o => do
    let ts ← o.terms
    return [.text (" ORDER BY " ++ ts)]

theorem clause_eq (o : Option OrderBy) : clause o = Segment.join <$> segments o := by
  cases o with
  | none => rfl
  | some o =>
    simp only [clause, segments, map_bind, map_pure, Segment.join_cons, Segment.fragment_text,
      Segment.join_nil, Fragment.append_empty]

end OrderBy

theorem limitClause_eq (limit : Option Nat) (offsetFollows : Bool) :
    limitClause limit offsetFollows = .text (limitClause limit offsetFollows).script := by
  unfold limitClause
  split
  · rfl
  · split <;> rfl

theorem offsetClause_eq (offset : Option Nat) :
    offsetClause offset = .text (offsetClause offset).script := by
  cases offset <;> rfl

/-! ### Queries, updates and deletions -/

namespace Select

/-- The text of the columns, all of them if there is no list. -/
def list : Option Columns → Except Error String
  | none => .ok "*"
  | some cs => cs.sql

/-- The segments of a query. -/
def segments (q : Select) : Except Error (List Segment) := do
  let list ← list q.columns
  let joins ← q.joins.mapM Join.segments
  let filter ← Where.segments q.filter
  let order ← OrderBy.segments q.orderBy
  let tables ← CommonTable.segments q.tables
  return tables ++ (.text (q.method.sql ++ " " ++ list ++ " FROM " ++ q.table) ::
    (joins.flatten ++ filter ++ order ++ [.text (limitClause q.limit q.offset.isSome).script,
      .text (offsetClause q.offset).script]))

theorem result_base (method : SelectMethod) (columns : Option Columns) (table : String) :
    (base method columns table).result =
      (fun l => .text (method.sql ++ " " ++ l ++ " FROM " ++ table)) <$> list columns := by
  cases columns with
  | none => rfl
  | some cs =>
    rw [base, Build.result_bind, map_eq_pure_bind]
    rfl

/-- **A query is its segments put together.** -/
theorem result_statement (q : Select) : q.statement.result = Segment.join <$> q.segments := by
  simp only [statement, segments, Build.result_bind, Build.result_ofExcept, result_base,
    Join.clauses_eq, Where.clause_eq, OrderBy.clause_eq, bind_map_left, map_bind, map_pure]
  congr 1; funext list
  congr 1; funext joins
  congr 1; funext filter
  congr 1; funext order
  rw [limitClause_eq, offsetClause_eq, ← CommonTable.before_join]
  congr 1
  simp only [Segment.join_cons, Segment.join_append, Segment.fragment_text, Segment.join_nil,
    Fragment.append_assoc, Fragment.append_empty, Fragment.script_text]

end Select

namespace Update

/-- The segments of an update. -/
def segments (q : Update) : Except Error (List Segment) := do
  let assignments ← Assignment.segments q.assignments
  let filter ← Where.segments q.filter
  let tables ← CommonTable.segments q.tables
  return tables ++ (.text (target q.onConflict q.table).script :: (assignments ++ filter))

theorem target_eq (onConflict : Option OnConflict) (table : String) :
    target onConflict table = .text (target onConflict table).script := by
  cases onConflict <;> rfl

/-- **An update is its segments put together.** -/
theorem statement_eq (q : Update) : q.statement = Segment.join <$> q.segments := by
  simp only [statement, segments, Assignment.clause_eq, Where.clause_eq, bind_map_left, map_bind,
    map_pure]
  congr 1; funext assignments
  congr 1; funext filter
  rw [target_eq, ← CommonTable.before_join]
  congr 1
  simp only [Segment.join_cons, Segment.join_append, Segment.fragment_text, Fragment.append_assoc,
    Fragment.script_text]

end Update

namespace Delete

/-- The segments of a deletion. -/
def segments (q : Delete) : Except Error (List Segment) := do
  let filter ← Where.segments q.filter
  let tables ← CommonTable.segments q.tables
  return tables ++ (.text ("DELETE FROM " ++ q.table) :: filter)

/-- **A deletion is its segments put together.** -/
theorem statement_eq (q : Delete) : q.statement = Segment.join <$> q.segments := by
  simp only [statement, segments, Where.clause_eq, bind_map_left, map_bind, map_pure]
  congr 1; funext filter
  rw [target, ← CommonTable.before_join]
  rfl

end Delete

/-! ### Inserts -/

namespace Insert

/-- The text of an insert up to the list of values. -/
def target (table : String) (verb : InsertVerb) (onConflict : Option OnConflict)
    (columns : Option (List String)) : String :=
  let option := match onConflict with
    | some o => " OR " ++ o.sql
    | none => ""
  let names := match columns with
    | some cs => " (" ++ ", ".intercalate cs ++ ")"
    | none => ""
  verb.sql ++ option ++ " INTO " ++ table ++ names ++ " VALUES ("

/-- The segments of an insert of one row, without names in front. -/
def body (table : String) (columns : Option (List String)) (arity : Nat)
    (options : InsertOptions) (values : Row) : List Segment :=
  [.text (target table options.verb options.onConflict columns),
    .piece ⟨Placeholder.list arity, values⟩, .text ")"]

/-- The segments of an insert for each row. -/
def frame (table : String) (columns : Option (List String)) (arity : Nat)
    (options : InsertOptions) : Except Error (Row → List Segment) := do
  let _ ← head table options.verb options.onConflict columns arity
  let tables ← CommonTable.segments options.tables
  return fun values => tables ++ body table columns arity options values

theorem join_body {table : String} {columns : Option (List String)} {arity : Nat}
    {options : InsertOptions} {s : String}
    (h : head table options.verb options.onConflict columns arity = .ok s) (values : Row) :
    Segment.join (body table columns arity options values) = ⟨s, values⟩ := by
  unfold head at h
  split_ifs at h
  cases h
  have hscript : (Segment.join (body table columns arity options values)).script =
      target table options.verb options.onConflict columns ++
        (Placeholder.list arity ++ (")" ++ "")) := rfl
  refine Fragment.ext_iff.2 ⟨?_, List.append_nil values⟩
  rw [hscript, String.append_empty, ← String.append_assoc]
  rfl

/-- **An insert of one row is its segments put together.** -/
theorem row_eq (table : String) (columns : Option (List String)) (arity : Nat)
    (values : List Value) (options : InsertOptions) :
    row table columns arity values options =
      (fun f => Segment.join (f values)) <$> frame table columns arity options := by
  unfold row frame
  cases hs : head table options.verb options.onConflict columns arity with
  | error e => rfl
  | ok s =>
    simp only [map_bind, map_pure]
    change CommonTable.before options.tables ⟨s, values⟩ = _
    rw [← join_body hs values, CommonTable.before_join]
    rfl

/-- **Each statement of a bulk insert is its segments put together.** -/
theorem statements_batch (table : String) (columns : Option (List String)) (arity : Nat)
    (rows : List Row) (options : InsertOptions) :
    (Batch.statements <$> do
      let script ← head table options.verb options.onConflict columns arity
      CommonTable.beforeBatch options.tables ⟨script, rows⟩) =
      (fun f => rows.map fun row => Segment.join (f row)) <$>
        frame table columns arity options := by
  unfold frame
  cases hs : head table options.verb options.onConflict columns arity with
  | error e => rfl
  | ok s =>
    change Batch.statements <$> CommonTable.beforeBatch options.tables ⟨s, rows⟩ = _
    simp only [CommonTable.beforeBatch, CommonTable.header_eq, bind_map_left, map_bind, map_pure]
    -- the common tables are built once and lead every row
    change (_ >>= _) = (_ >>= _)
    congr 1; funext w
    simp only [Batch.statements, List.map_map]
    congr 2; funext row
    rw [Segment.join_append, join_body hs row]
    rfl

end Insert

namespace Reconcile

/-- Columns and values are both cut to the length of the shorter list. -/
theorem result_crop {α : Type} (table : String) (columns : List α) (values : List Value) :
    ∃ m, (crop table columns values).result =
      .ok (columns.take (min columns.length values.length),
        values.take (min columns.length values.length), m) := by
  unfold crop
  split_ifs with h
  · refine ⟨none, ?_⟩
    rw [← h, Nat.min_self, List.take_length, h, List.take_length]
    rfl
  · exact ⟨_, rfl⟩

theorem result_fitRows (table : String) (rows : List Row) (arity : Nat) :
    ∃ n, (fitRows table rows arity).result = .ok (rows.map (fit arity), n) := by
  unfold fitRows
  simp only
  split_ifs
  · exact ⟨_, rfl⟩
  · exact ⟨_, rfl⟩

theorem length_fit (arity : Nat) (row : Row) : (fit arity row).length = arity := by
  rw [fit, List.length_append, List.length_take, List.length_replicate]
  omega

theorem result_zipColumns (table : String) (columns : List (String × List Value)) :
    (zipColumns table columns).result = .ok (columns.map Prod.fst,
      (List.range (height columns)).map fun i => columns.map fun c => c.2.getD i .null) := by
  unfold zipColumns
  simp only
  split_ifs <;> rfl

end Reconcile

namespace Insert

/-- The result of a bulk insert of rows, whatever it reports. -/
theorem result_manyRows (table : String) (columns : List String) (rows : List Row)
    (options : InsertOptions) :
    (manyRows table columns rows options).result =
      let targets := columns.take (Reconcile.widest rows)
      if Reconcile.widest rows = 0 then .error (.noData "insert_many")
      else head table options.verb options.onConflict (some targets) targets.length >>=
        fun script => CommonTable.beforeBatch options.tables
          ⟨script, rows.map (Reconcile.fit targets.length)⟩ := by
  unfold manyRows
  simp only
  split_ifs with hw
  · rfl
  · obtain ⟨n, hn⟩ := Reconcile.result_fitRows table rows
      (columns.take (Reconcile.widest rows)).length
    simp only [Build.result_bind, Build.result_ofExcept, hn]
    congr 1; funext script
    -- whether narrow rows are reported does not matter to the result
    change Build.result (if _ then _ else _) = _
    split_ifs <;> rfl

/-- The result of a bulk insert of columns, whatever it reports. -/
theorem result_manyColumns (table : String) (columns : List (String × List Value))
    (options : InsertOptions) :
    (manyColumns table columns options).result =
      let names := columns.map Prod.fst
      let rows := (List.range (Reconcile.height columns)).map fun i =>
        columns.map fun c => c.2.getD i .null
      if names.isEmpty ∨ rows.isEmpty then .error (.noData "insert_many")
      else head table options.verb options.onConflict (some names) names.length >>=
        fun script => CommonTable.beforeBatch options.tables ⟨script, rows⟩ := by
  unfold manyColumns
  rw [Build.result_bind, Reconcile.result_zipColumns]
  change Build.result (if _ then _ else _) = _
  simp only
  split_ifs
  · rfl
  · simp only [Build.result_bind, Build.result_ofExcept]

end Insert

/-! ### Drafts -/

namespace Draft

/-- The segments of each statement of a draft. -/
def layouts : Draft → Except Error (List (List Segment))
  | select q => (fun l => [l]) <$> q.segments
  | update q => (fun l => [l]) <$> q.segments
  | delete q => (fun l => [l]) <$> q.segments
  | fastInsert table values options =>
    (fun f => [f values]) <$> Insert.frame table none values.length options
  | columnInsert table columns values options =>
    let keep := min columns.length values.length
    (fun f => [f (values.take keep)]) <$>
      Insert.frame table (some (columns.take keep)) (columns.take keep).length options
  | boundInsert table b options =>
    (fun f => [f b.values]) <$> Insert.frame table (some b.columns) b.columns.length options
  | rowsInsert table columns rows options =>
    let width := Reconcile.widest rows
    let targets := columns.take width
    if width = 0 then .error (.noData "insert_many")
    else (fun f => (rows.map (Reconcile.fit targets.length)).map f) <$>
      Insert.frame table (some targets) targets.length options
  | listsInsert table columns options =>
    let names := columns.map Prod.fst
    let rows := (List.range (Reconcile.height columns)).map fun i =>
      columns.map fun c => c.2.getD i .null
    if names.isEmpty ∨ rows.isEmpty then .error (.noData "insert_many")
    else (fun f => rows.map f) <$> Insert.frame table (some names) names.length options

/-- **What a builder makes of a draft is its segments put together**, with the same errors. -/
theorem statements_build (d : Draft) :
    Batch.statements <$> d.build.result = List.map Segment.join <$> d.layouts := by
  cases d with
  | select q =>
    simp only [build, layouts, Build.result_map, Select.result_statement, Functor.map_map,
      Batch.statements_asBatch, List.map_cons, List.map_nil]
  | update q =>
    simp only [build, layouts, Build.result_map, Build.result_ofExcept, Update.statement_eq,
      Functor.map_map, Batch.statements_asBatch, List.map_cons, List.map_nil]
  | delete q =>
    simp only [build, layouts, Build.result_map, Build.result_ofExcept, Delete.statement_eq,
      Functor.map_map, Batch.statements_asBatch, List.map_cons, List.map_nil]
  | fastInsert table values options =>
    simp only [build, layouts, Build.result_map, Build.result_ofExcept, Insert.fast,
      Insert.row_eq, Functor.map_map, Batch.statements_asBatch, List.map_cons, List.map_nil]
  | columnInsert table columns values options =>
    obtain ⟨m, hm⟩ := Reconcile.result_crop table columns values
    simp only [build, layouts, Build.result_map, Insert.intoColumns, Build.result_bind, hm]
    change Batch.statements <$> Fragment.asBatch <$> Insert.row _ _ _ _ _ = _
    simp only [Insert.row_eq, Functor.map_map, Batch.statements_asBatch, List.map_cons,
      List.map_nil]
  | boundInsert table b options =>
    simp only [build, layouts, Build.result_map, Build.result_ofExcept, Insert.ofBindings,
      Insert.row_eq, Functor.map_map, Batch.statements_asBatch, List.map_cons, List.map_nil]
  | rowsInsert table columns rows options =>
    simp only [build, layouts, Insert.result_manyRows]
    split_ifs with hw
    · rfl
    · rw [Insert.statements_batch, Functor.map_map]
      simp only [List.map_map, Function.comp_def]
  | listsInsert table columns options =>
    simp only [build, layouts, Insert.result_manyColumns]
    split_ifs with hn
    · rfl
    · rw [Insert.statements_batch, Functor.map_map]
      simp only [List.map_map, Function.comp_def]

end Draft

end BoundSql
