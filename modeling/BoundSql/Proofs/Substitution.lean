import BoundSql.Proofs.Layout

/-!
# Values never reach the text

Two runs of a builder whose inputs differ in their values only give the same text and the same
errors.  For a function on values, `mapValues` changes every value of an input and nothing else of
it, and each clause is shown to give the changed values in the places of the old ones: building and
changing values can be done in either order.

The one exception are the nulls that a bulk insert adds to short rows.  They are no values of the
input, and `Batch.mapSupplied` leaves them alone.  `Draft.substitution` is the main statement.
-/

namespace BoundSql

variable (f : Value → Value)

/-! ### Fragments -/

namespace Fragment

/-- Changes the values of a fragment. -/
def mapValues (x : Fragment) : Fragment := ⟨x.script, x.values.map f⟩

@[simp] theorem script_mapValues (x : Fragment) : (x.mapValues f).script = x.script := rfl

@[simp] theorem mapValues_text (s : String) : (text s).mapValues f = text s := rfl

@[simp] theorem mapValues_placeholder (v : Value) :
    (placeholder v).mapValues f = placeholder (f v) := rfl

@[simp] theorem mapValues_append (x y : Fragment) :
    (x ++ y).mapValues f = x.mapValues f ++ y.mapValues f := by
  rw [ext_iff]
  exact ⟨rfl, List.map_append⟩

@[simp] theorem mapValues_parenthesized (x : Fragment) :
    x.parenthesized.mapValues f = (x.mapValues f).parenthesized := by
  simp only [parenthesized, mapValues_append, mapValues_text]

@[simp] theorem mapValues_joined (separator : String) (xs : List Fragment) :
    (joined separator xs).mapValues f = joined separator (xs.map (mapValues f)) := by
  induction xs using joined.induct with
  | case1 => rfl
  | case2 x => rfl
  | case3 x y rest ih =>
    simp only [joined, List.map_cons, mapValues_append, mapValues_text] at ih ⊢
    rw [ih]

/-- The check of placeholders counts values and does not look at them. -/
theorem checked_mapValues (clause : String) (x : Fragment) :
    (x.mapValues f).checked clause = mapValues f <$> x.checked clause := by
  have hl : (x.mapValues f).values.length = x.values.length := List.length_map f
  unfold checked isAligned placeholders
  rw [hl, script_mapValues]
  split <;> rfl

end Fragment

/-- Steps on changed data that give changed results. -/
theorem mapM_of_natural {m : Type → Type} [Monad m] [LawfulMonad m] {α β : Type}
    {g : α → α} {k : β → β} {step : α → m β} (h : ∀ a, step (g a) = k <$> step a) (l : List α) :
    (l.map g).mapM step = List.map k <$> l.mapM step := by
  rw [List.mapM_map, ← mapM_map_result]
  congr 1
  exact funext h

/-! ### Conditions -/

namespace Expr

/-- Changes the values of an expression. -/
def mapValues : Expr → Expr
  | column name => column name
  | bound v => bound (f v)
  | raw text values => raw text (values.map f)
  | arithmetic op left right => arithmetic op left.mapValues right.mapValues
  | compare op left right => compare op left.mapValues right.mapValues
  | like name pattern => like name (f pattern)
  | isNull name => isNull name
  | isNotNull name => isNotNull name
  | isIn name values => isIn name (values.map f)
  | between name low high => between name (f low) (f high)
  | not e => not e.mapValues
  | and left right => and left.mapValues right.mapValues
  | or left right => or left.mapValues right.mapValues

/-- Which parentheses are needed does not depend on values. -/
theorem shape_mapValues (e : Expr) : (e.mapValues f).shape = e.shape := by
  cases e <;> rfl

theorem mapValues_grouped (needed : Bool) (x : Fragment) :
    (grouped needed x).mapValues f = grouped needed (x.mapValues f) := by
  cases needed with
  | false => rfl
  | true => exact Fragment.mapValues_parenthesized f x

theorem mapValues_binary (op : String) (x y : Fragment) :
    (binary op x y).mapValues f = binary op (x.mapValues f) (y.mapValues f) := by
  simp only [binary, Fragment.mapValues_append, Fragment.mapValues_text]

/-- **An expression with changed values is written as before**, with the changed values. -/
theorem render_mapValues (e : Expr) : (e.mapValues f).render = e.render.mapValues f := by
  induction e with
  | column name => rfl
  | bound v => rfl
  | raw text values => rfl
  | arithmetic op left right ihl ihr | compare op left right ihl ihr | and left right ihl ihr
  | or left right ihl ihr =>
    simp only [mapValues, render, ihl, ihr, shape_mapValues, mapValues_binary, mapValues_grouped]
  | like name pattern => rfl
  | isNull name => rfl
  | isNotNull name => rfl
  | isIn name values =>
    simp only [mapValues, render, Fragment.mapValues_append, Fragment.mapValues_text,
      Fragment.mapValues_joined, List.map_map, Function.comp_def, Fragment.mapValues_placeholder]
  | between name low high => rfl
  | not e ih =>
    simp only [mapValues, render, ih, Fragment.mapValues_append, Fragment.mapValues_text,
      Fragment.mapValues_parenthesized]

theorem mapValues_foldl (combine : Expr → Expr → Expr)
    (h : ∀ a b, (combine a b).mapValues f = combine (a.mapValues f) (b.mapValues f)) (e : Expr)
    (es : List Expr) :
    (es.map (mapValues f)).foldl combine (e.mapValues f) = (es.foldl combine e).mapValues f := by
  induction es generalizing e with
  | nil => rfl
  | cons a es ih =>
    rw [List.map_cons, List.foldl_cons, ← h]
    exact ih (combine e a)

theorem all_mapValues (es : List Expr) :
    all (es.map (mapValues f)) = (all es).map (mapValues f) := by
  cases es with
  | nil => rfl
  | cons e es => exact congrArg some (mapValues_foldl f and (fun _ _ => rfl) e es)

theorem any_mapValues (es : List Expr) :
    any (es.map (mapValues f)) = (any es).map (mapValues f) := by
  cases es with
  | nil => rfl
  | cons e es => exact congrArg some (mapValues_foldl f or (fun _ _ => rfl) e es)

end Expr

/-- Changes the values of a predicate. -/
def Predicate.mapValues : Predicate → Predicate
  | eq v => eq (f v)
  | any values => any (values.map f)
  | op o values => op o (values.map f)

namespace Where

/-- Changes the values of a filter. -/
def mapValues : Where → Where
  | mapping entries => mapping (entries.map fun e => (e.1, e.2.mapValues f))
  | condition e => condition (e.mapValues f)
  | raw text => raw text

theorem entry_mapValues (e : String × Predicate) :
    entry (e.1, e.2.mapValues f) = Expr.mapValues f <$> entry e := by
  obtain ⟨column, p⟩ := e
  have ho : (p.mapValues f).operator = p.operator := by cases p <;> rfl
  have hv : (p.mapValues f).values = p.values.map f := by cases p <;> rfl
  let term : Value → Expr := fun v => .compare p.operator (.column column) (.bound v)
  have ha : Expr.any ((p.values.map f).map term) =
      (Expr.any (p.values.map term)).map (Expr.mapValues f) := by
    rw [← Expr.any_mapValues, List.map_map, List.map_map]
    rfl
  simp only [entry, ho, hv]
  rw [ha]
  cases Expr.any (p.values.map term) <;> rfl

theorem expr_mapValues (w : Where) : (w.mapValues f).expr = Expr.mapValues f <$> w.expr := by
  cases w with
  | condition e => rfl
  | raw text =>
    change (if _ then _ else _) = Expr.mapValues f <$> (if _ then _ else _)
    split <;> rfl
  | mapping entries =>
    change (List.mapM entry (entries.map _) >>= _) = Expr.mapValues f <$> (_ >>= _)
    rw [mapM_of_natural (entry_mapValues f), bind_map_left, map_bind]
    congr 1; funext terms
    rw [Expr.all_mapValues]
    cases Expr.all terms <;> rfl

theorem clause_mapValues (w : Option Where) :
    clause (w.map (mapValues f)) = Fragment.mapValues f <$> clause w := by
  cases w with
  | none => rfl
  | some w =>
    simp only [Option.map_some, clause, expr_mapValues, bind_map_left, Expr.render_mapValues,
      Fragment.checked_mapValues, map_bind, map_pure, Fragment.mapValues_append,
      Fragment.mapValues_text, Fragment.mapValues_parenthesized]

end Where

/-! ### Clauses around conditions -/

namespace Join

/-- Changes the values of a join. -/
def mapValues (j : Join) : Join := { j with on := j.on.map (Expr.mapValues f) }

theorem clause_mapValues (j : Join) :
    clause (j.mapValues f) = Fragment.mapValues f <$> clause j := by
  obtain ⟨table, method, on, common⟩ := j
  cases on with
  | none => cases common <;> rfl
  | some e =>
    cases common with
    | cons n ns => rfl
    | nil =>
      simp only [mapValues, Option.map_some, clause, Expr.render_mapValues,
        Fragment.checked_mapValues, bind_map_left, map_bind, map_pure, Fragment.mapValues_append,
        Fragment.mapValues_text]

theorem clauses_mapValues (joins : List Join) :
    clauses (joins.map (mapValues f)) = Fragment.mapValues f <$> clauses joins := by
  simp only [clauses, mapM_of_natural (clause_mapValues f), bind_map_left, map_bind, map_pure,
    Fragment.mapValues_joined]

end Join

namespace CommonTable

/-- Changes the values of a common table. -/
def mapValues (c : CommonTable) : CommonTable := ⟨c.name, c.statement.mapValues f⟩

theorem definition_mapValues (c : CommonTable) :
    definition (c.mapValues f) = Fragment.mapValues f <$> definition c := by
  simp only [definition, mapValues, Fragment.checked_mapValues, bind_map_left, map_bind, map_pure,
    Fragment.mapValues_append, Fragment.mapValues_text, Fragment.mapValues_parenthesized]

theorem header_mapValues (tables : List CommonTable) :
    header (tables.map (mapValues f)) = Fragment.mapValues f <$> header tables := by
  simp only [header, mapM_of_natural (definition_mapValues f), bind_map_left, map_bind, map_pure,
    List.isEmpty_map]
  congr 1; funext definitions
  split
  · rfl
  · simp only [Fragment.mapValues_append, Fragment.mapValues_text, Fragment.mapValues_joined]

theorem before_mapValues (tables : List CommonTable) (s : Statement) :
    before (tables.map (mapValues f)) (s.mapValues f) =
      Fragment.mapValues f <$> before tables s := by
  simp only [before, header_mapValues, bind_map_left, map_bind, map_pure,
    Fragment.mapValues_append]

end CommonTable

/-- Changes the value or the values that are assigned. -/
def Assigned.mapValues : Assigned → Assigned
  | value v => value (f v)
  | expr e => expr (e.mapValues f)

namespace Assignment

/-- Changes the values of an assignment. -/
def mapValues (a : Assignment) : Assignment := ⟨a.column, a.assigned.mapValues f⟩

theorem entry_mapValues (a : Assignment) :
    entry (a.mapValues f) = Fragment.mapValues f <$> entry a := by
  have hr : right (a.assigned.mapValues f) = Fragment.mapValues f <$> right a.assigned := by
    cases a.assigned with
    | value v => rfl
    | expr e =>
      simp only [Assigned.mapValues, right, Expr.render_mapValues, Fragment.checked_mapValues]
  simp only [entry, mapValues, hr, bind_map_left, map_bind, map_pure, Fragment.mapValues_append,
    Fragment.mapValues_text]

theorem clause_mapValues (assignments : List Assignment) :
    clause (assignments.map (mapValues f)) = Fragment.mapValues f <$> clause assignments := by
  unfold clause
  rw [List.isEmpty_map]
  split
  · rfl
  · simp only [mapM_of_natural (entry_mapValues f), bind_map_left, map_bind, map_pure,
      Fragment.mapValues_append, Fragment.mapValues_text, Fragment.mapValues_joined]

end Assignment

/-! ### Queries, updates and deletions -/

namespace Select

/-- Changes the values of a query. -/
def mapValues (q : Select) : Select :=
  { q with
    joins := q.joins.map (Join.mapValues f)
    filter := q.filter.map (Where.mapValues f)
    tables := q.tables.map (CommonTable.mapValues f) }

theorem base_mapValues (method : SelectMethod) (columns : Option Columns) (table : String) :
    Fragment.mapValues f <$> base method columns table = base method columns table := by
  unfold base
  cases columns with
  | none => rfl
  | some cs => simp only [map_bind, map_pure, Fragment.mapValues_text]

theorem order_mapValues (o : Option OrderBy) :
    Fragment.mapValues f <$> OrderBy.clause o = OrderBy.clause o := by
  cases o with
  | none => rfl
  | some o => simp only [OrderBy.clause, map_bind, map_pure, Fragment.mapValues_text]

/-- **A query with changed values is built as before**, with the changed values. -/
theorem statement_mapValues (q : Select) :
    (q.mapValues f).statement = Fragment.mapValues f <$> q.statement := by
  have hlimit : (limitClause q.limit q.offset.isSome).mapValues f =
      limitClause q.limit q.offset.isSome := by
    unfold limitClause
    split
    · rfl
    · split <;> rfl
  have hoffset : (offsetClause q.offset).mapValues f = offsetClause q.offset := by
    cases q.offset <;> rfl
  unfold statement
  simp only [mapValues, Join.clauses_mapValues, Where.clause_mapValues]
  -- columns and order bind no values, so that changing theirs changes nothing
  conv =>
    lhs
    rw [← base_mapValues f, ← order_mapValues f]
  simp only [← Build.map_ofExcept, bind_map_left, map_bind]
  congr 1; funext base
  congr 1; funext joins
  congr 1; funext filter
  congr 1; funext order
  rw [Build.map_ofExcept, ← CommonTable.before_mapValues]
  simp only [Fragment.mapValues_append, hlimit, hoffset]

end Select

namespace Update

/-- Changes the values of an update. -/
def mapValues (q : Update) : Update :=
  { q with
    assignments := q.assignments.map (Assignment.mapValues f)
    filter := q.filter.map (Where.mapValues f)
    tables := q.tables.map (CommonTable.mapValues f) }

/-- **An update with changed values is built as before**, with the changed values. -/
theorem statement_mapValues (q : Update) :
    (q.mapValues f).statement = Fragment.mapValues f <$> q.statement := by
  have ht : (target q.onConflict q.table).mapValues f = target q.onConflict q.table := by
    cases q.onConflict <;> rfl
  simp only [statement, mapValues, Assignment.clause_mapValues, Where.clause_mapValues,
    bind_map_left, map_bind]
  congr 1; funext assignments
  congr 1; funext filter
  rw [← CommonTable.before_mapValues]
  simp only [Fragment.mapValues_append, ht]

end Update

namespace Delete

/-- Changes the values of a deletion. -/
def mapValues (q : Delete) : Delete :=
  { q with
    filter := q.filter.map (Where.mapValues f)
    tables := q.tables.map (CommonTable.mapValues f) }

/-- **A deletion with changed values is built as before**, with the changed values. -/
theorem statement_mapValues (q : Delete) :
    (q.mapValues f).statement = Fragment.mapValues f <$> q.statement := by
  have ht : (target q.table).mapValues f = target q.table := rfl
  simp only [statement, mapValues, Where.clause_mapValues, bind_map_left, map_bind]
  congr 1; funext filter
  rw [← CommonTable.before_mapValues, Fragment.mapValues_append, ht]

end Delete

/-! ### Rows with padding -/

namespace Row

/-- Changes the values of a row but for its last `k`. -/
def mapSupplied (k : Nat) (row : Row) : Row :=
  (row.take (row.length - k)).map f ++ row.drop (row.length - k)

/-- In a row without padding every value is changed. -/
theorem mapSupplied_zero (row : Row) : mapSupplied f 0 row = row.map f := by
  rw [mapSupplied, Nat.sub_zero, List.take_length, List.drop_length, List.append_nil]

theorem mapSupplied_append {k : Nat} (pre : Row) {row : Row} (h : k ≤ row.length) :
    mapSupplied f k (pre ++ row) = pre.map f ++ mapSupplied f k row := by
  have hl : (pre ++ row).length - k = pre.length + (row.length - k) := by
    rw [List.length_append]
    omega
  unfold mapSupplied
  rw [hl, List.take_length_add_append, List.drop_length_add_append, List.map_append,
    List.append_assoc]

/-- A row that is made longer keeps its nulls, and one that is cut loses as many values. -/
theorem mapSupplied_fit (arity : Nat) (row : Row) :
    mapSupplied f (arity - row.length) (Reconcile.fit arity row) =
      Reconcile.fit arity (row.map f) := by
  have hp : ∀ k, mapSupplied f k (List.replicate k .null) = List.replicate k .null := by
    intro k
    rw [mapSupplied, List.length_replicate, Nat.sub_self]
    rfl
  unfold Reconcile.fit
  rw [mapSupplied_append f _ (Nat.le_of_eq List.length_replicate.symm), hp, List.map_take,
    List.length_map]

end Row

namespace Batch

/-- Changes the values of a batch but for the last `padding i` of row `i`. -/
def mapSupplied (padding : Nat → Nat) (b : Batch) : Batch :=
  ⟨b.script, b.rows.mapIdx fun i row => Row.mapSupplied f (padding i) row⟩

/-- The last `padding i` values of row `i` are nulls. -/
def Padded (padding : Nat → Nat) (b : Batch) : Prop :=
  ∀ i row, b.rows[i]? = some row → ∃ supplied : Row,
    row = supplied ++ List.replicate (padding i) .null

theorem mapSupplied_zero (b : Batch) :
    b.mapSupplied f (fun _ => 0) = ⟨b.script, b.rows.map (List.map f)⟩ := by
  unfold mapSupplied
  simp only [Row.mapSupplied_zero]
  congr 1
  exact List.mapIdx_eq_iff.2 fun i => List.getElem?_map

theorem mapSupplied_asBatch (s : Statement) :
    s.asBatch.mapSupplied f (fun _ => 0) = (s.mapValues f).asBatch :=
  mapSupplied_zero f s.asBatch

theorem padded_zero (b : Batch) : b.Padded fun _ => 0 :=
  fun _ row _ => ⟨row, (List.append_nil row).symm⟩

theorem Padded.le_length {padding : Nat → Nat} {b : Batch} (h : b.Padded padding) {i : Nat}
    {row : Row} (hr : b.rows[i]? = some row) : padding i ≤ row.length := by
  obtain ⟨supplied, rfl⟩ := h i row hr
  rw [List.length_append, List.length_replicate]
  omega

/-- Rows that are brought to one length, with the padding that each of them gets. -/
theorem padded_fit (script : String) (rows : List Row) (arity : Nat) :
    (Batch.mk script (rows.map (Reconcile.fit arity))).Padded fun i =>
      arity - (rows[i]?.getD []).length := by
  intro i row hr
  rw [List.getElem?_map] at hr
  obtain ⟨given, hg, rfl⟩ := Option.map_eq_some_iff.1 hr
  refine ⟨given.take arity, ?_⟩
  simp only [hg, Option.getD_some]
  rfl

theorem mapSupplied_fit (script : String) (rows : List Row) (arity : Nat) :
    (Batch.mk script (rows.map (Reconcile.fit arity))).mapSupplied f
        (fun i => arity - (rows[i]?.getD []).length) =
      ⟨script, (rows.map (List.map f)).map (Reconcile.fit arity)⟩ := by
  unfold mapSupplied
  congr 1
  refine List.mapIdx_eq_iff.2 fun i => ?_
  simp only [List.getElem?_map]
  cases rows[i]? with
  | none => rfl
  | some row => exact congrArg some (Row.mapSupplied_fit f arity row).symm

end Batch

namespace CommonTable

/-- Common tables lead every row and leave its padding at the end. -/
theorem beforeBatch_mapValues (tables : List CommonTable) {padding : Nat → Nat} {b : Batch}
    (h : b.Padded padding) :
    beforeBatch (tables.map (mapValues f)) (b.mapSupplied f padding) =
      Batch.mapSupplied f padding <$> beforeBatch tables b := by
  simp only [beforeBatch, header_mapValues, bind_map_left, map_bind, map_pure]
  congr 1; funext w
  unfold Batch.mapSupplied
  congr 2
  -- row by row: what leads a row does not reach its padding
  refine (List.mapIdx_eq_iff.2 fun i => ?_).symm
  simp only [List.getElem?_map, List.getElem?_mapIdx]
  cases hr : b.rows[i]? with
  | none => rfl
  | some row => exact congrArg some (Row.mapSupplied_append f w.values (h.le_length hr)).symm

theorem padded_beforeBatch {tables : List CommonTable} {padding : Nat → Nat} {b b' : Batch}
    (h : b.Padded padding) (hb : beforeBatch tables b = .ok b') : b'.Padded padding := by
  obtain ⟨w, -, hw⟩ := bind_eq_ok.1 hb
  cases hw
  intro i row hr
  rw [List.getElem?_map] at hr
  obtain ⟨given, hg, rfl⟩ := Option.map_eq_some_iff.1 hr
  obtain ⟨supplied, rfl⟩ := h i given hg
  exact ⟨w.values ++ supplied, (List.append_assoc _ _ _).symm⟩

end CommonTable

/-! ### Inserts -/

namespace Reconcile

theorem crop_mapValues (table : String) (columns : List String) (values : List Value) :
    crop table columns (values.map f) =
      (fun r => (r.1, r.2.1.map f, r.2.2)) <$> crop table columns values := by
  unfold crop
  rw [List.length_map]
  split
  · rfl
  · simp only [map_bind, map_pure, List.map_take]

theorem widest_mapValues (rows : List Row) : widest (rows.map (List.map f)) = widest rows := by
  unfold widest
  rw [List.foldl_map]
  simp only [List.length_map]

/-- What is reported about rows, and how many are changed, depends on their lengths only. -/
theorem fitRows_mapValues (table : String) (rows : List Row) (arity : Nat) :
    ∃ changed : Build Nat,
      fitRows table rows arity = (fun n => (rows.map (fit arity), n)) <$> changed ∧
        fitRows table (rows.map (List.map f)) arity =
          (fun n => ((rows.map (List.map f)).map (fit arity), n)) <$> changed := by
  refine ⟨Prod.snd <$> fitRows table rows arity, ?_⟩
  unfold fitRows
  simp only [List.countP_map, Function.comp_def, List.length_map]
  split
  · exact ⟨rfl, rfl⟩
  · exact ⟨rfl, rfl⟩

/-- The shortest column has no more values than any other. -/
theorem height_le {columns : List (String × List Value)} {c : String × List Value}
    (hc : c ∈ columns) : height columns ≤ c.2.length :=
  List.min?_getD_le_of_mem (List.mem_map_of_mem hc)

theorem zipColumns_mapValues (table : String) (columns : List (String × List Value)) :
    zipColumns table (columns.map fun c => (c.1, c.2.map f)) =
      (fun r => (r.1, r.2.map (List.map f))) <$> zipColumns table columns := by
  have hn : (columns.map fun c => (c.1, c.2.map f)).map Prod.fst = columns.map Prod.fst := by
    rw [List.map_map]
    rfl
  have hl : (columns.map fun c => (c.1, c.2.map f)).map (fun c => c.2.length) =
      columns.map fun c => c.2.length := by
    rw [List.map_map]
    exact List.map_congr_left fun c _ => List.length_map f
  have hheight : height (columns.map fun c => (c.1, c.2.map f)) = height columns :=
    congrArg (fun ns : List Nat => ns.min?.getD 0) hl
  have htallest : tallest (columns.map fun c => (c.1, c.2.map f)) = tallest columns :=
    congrArg (fun ns : List Nat => ns.max?.getD 0) hl
  -- rows end with the shortest column, so no column lacks a value
  have hrows : ((List.range (height columns)).map fun i =>
        (columns.map fun c => (c.1, c.2.map f)).map fun c => c.2.getD i .null) =
      ((List.range (height columns)).map fun i => columns.map fun c => c.2.getD i .null).map
        (List.map f) := by
    rw [List.map_map]
    refine List.map_congr_left fun i hi => ?_
    rw [Function.comp_apply, List.map_map, List.map_map]
    refine List.map_congr_left fun c hc => ?_
    have hlt : i < c.2.length := Nat.lt_of_lt_of_le (List.mem_range.1 hi) (height_le hc)
    change (c.2.map f).getD i .null = f (c.2.getD i .null)
    rw [List.getD_eq_getElem?_getD, List.getD_eq_getElem?_getD, List.getElem?_map,
      List.getElem?_eq_getElem hlt]
    rfl
  unfold zipColumns
  simp only [hheight, htallest, hn, hrows]
  split <;> rfl

end Reconcile

/-- Changes the values of what inserts have in common. -/
def InsertOptions.mapValues (o : InsertOptions) : InsertOptions :=
  { o with tables := o.tables.map (CommonTable.mapValues f) }

/-- Changes the values of bindings. -/
def Bindings.mapValues (b : Bindings) : Bindings := b.map fun e => (e.1, f e.2)

namespace Insert

/-- **An insert of one row with changed values is built as before**, with the changed values. -/
theorem row_mapValues (table : String) (columns : Option (List String)) (arity : Nat)
    (values : List Value) (options : InsertOptions) :
    row table columns arity (values.map f) (options.mapValues f) =
      Fragment.mapValues f <$> row table columns arity values options := by
  unfold row
  rw [map_bind]
  congr 1; funext script
  exact CommonTable.before_mapValues f options.tables ⟨script, values⟩

theorem intoColumns_mapValues (table : String) (columns : List String) (values : List Value)
    (options : InsertOptions) :
    intoColumns table columns (values.map f) (options.mapValues f) =
      Fragment.mapValues f <$> intoColumns table columns values options := by
  simp only [intoColumns, Reconcile.crop_mapValues, bind_map_left, map_bind, row_mapValues,
    Build.map_ofExcept]

theorem ofBindings_mapValues (table : String) (b : Bindings) (options : InsertOptions) :
    ofBindings table (b.mapValues f) (options.mapValues f) =
      Fragment.mapValues f <$> ofBindings table b options := by
  have hc : (b.mapValues f).columns = b.columns := by
    rw [Bindings.columns, Bindings.mapValues, List.map_map]
    rfl
  have hv : (b.mapValues f).values = b.values.map f := by
    rw [Bindings.values, Bindings.mapValues, List.map_map, Bindings.values, List.map_map]
    rfl
  unfold ofBindings
  rw [hc, hv, row_mapValues]

/-- The padding of a bulk insert: what each row lacks of the columns that are written. -/
def padding (columns : List String) (rows : List Row) (i : Nat) : Nat :=
  (columns.take (Reconcile.widest rows)).length - (rows[i]?.getD []).length

/-- **A bulk insert with changed values is built as before**, with the changed values and the same
padding. -/
theorem manyRows_mapValues (table : String) (columns : List String) (rows : List Row)
    (options : InsertOptions) :
    manyRows table columns (rows.map (List.map f)) (options.mapValues f) =
      Batch.mapSupplied f (padding columns rows) <$> manyRows table columns rows options := by
  obtain ⟨changed, hr, hm⟩ := Reconcile.fitRows_mapValues f table rows
    (columns.take (Reconcile.widest rows)).length
  unfold manyRows
  simp only [Reconcile.widest_mapValues]
  split
  · rfl
  · rw [hr, hm, map_bind]
    congr 1; funext script
    have hp := Batch.padded_fit script rows (columns.take (Reconcile.widest rows)).length
    have hb := CommonTable.beforeBatch_mapValues f options.tables hp
    rw [Batch.mapSupplied_fit] at hb
    rw [bind_map_left, bind_map_left, map_bind]
    congr 1; funext n
    -- narrow rows are reported in both runs or in none
    split
    · rw [map_bind, Build.map_ofExcept]
      exact congrArg (fun r => Build.report _ >>= fun _ => Build.ofExcept r) hb
    · rw [Build.map_ofExcept]
      exact congrArg Build.ofExcept hb

/-- The padding of a bulk insert is null. -/
theorem padded_manyRows {table : String} {columns : List String} {rows : List Row}
    {options : InsertOptions} {b : Batch}
    (h : (manyRows table columns rows options).result = .ok b) :
    b.Padded (padding columns rows) := by
  rw [result_manyRows] at h
  simp only at h
  split_ifs at h
  obtain ⟨script, -, hb⟩ := bind_eq_ok.1 h
  exact CommonTable.padded_beforeBatch (Batch.padded_fit script rows _) hb

theorem manyColumns_mapValues (table : String) (columns : List (String × List Value))
    (options : InsertOptions) :
    manyColumns table (columns.map fun c => (c.1, c.2.map f)) (options.mapValues f) =
      Batch.mapSupplied f (fun _ => 0) <$> manyColumns table columns options := by
  unfold manyColumns
  rw [Reconcile.zipColumns_mapValues, bind_map_left, map_bind]
  congr 1; funext r
  obtain ⟨names, rows⟩ := r
  simp only [List.isEmpty_map]
  split
  · rfl
  · rw [map_bind]
    congr 1; funext script
    rw [Build.map_ofExcept, ← CommonTable.beforeBatch_mapValues f _ (Batch.padded_zero _),
      Batch.mapSupplied_zero]
    rfl

end Insert

/-! ### Drafts -/

namespace Draft

/-- Changes the values of a draft. -/
def mapValues : Draft → Draft
  | select q => select (q.mapValues f)
  | update q => update (q.mapValues f)
  | delete q => delete (q.mapValues f)
  | fastInsert table values options => fastInsert table (values.map f) (options.mapValues f)
  | columnInsert table columns values options =>
    columnInsert table columns (values.map f) (options.mapValues f)
  | boundInsert table b options => boundInsert table (b.mapValues f) (options.mapValues f)
  | rowsInsert table columns rows options =>
    rowsInsert table columns (rows.map (List.map f)) (options.mapValues f)
  | listsInsert table columns options =>
    listsInsert table (columns.map fun c => (c.1, c.2.map f)) (options.mapValues f)

/-- How many nulls are added to row `i` of what is built. -/
def padding : Draft → Nat → Nat
  | rowsInsert _ columns rows _ => Insert.padding columns rows
  | _ => fun _ => 0

/-- Where nulls are added does not depend on values. -/
theorem padding_mapValues (d : Draft) : (d.mapValues f).padding = d.padding := by
  cases d with
  | rowsInsert table columns rows options =>
    funext i
    change Insert.padding columns (rows.map (List.map f)) i = Insert.padding columns rows i
    unfold Insert.padding
    rw [Reconcile.widest_mapValues, List.getElem?_map]
    cases rows[i]? with
    | none => rfl
    | some row => exact congrArg _ (List.length_map f)
  | _ => rfl

theorem padded_build {d : Draft} {b : Batch} (h : d.build.result = .ok b) :
    b.Padded d.padding := by
  cases d with
  | rowsInsert table columns rows options => exact Insert.padded_manyRows h
  | _ => exact b.padded_zero

/-- **A draft with changed values is built as before**, with the changed values in the places of the
old ones. -/
theorem build_mapValues (d : Draft) :
    (d.mapValues f).build = Batch.mapSupplied f d.padding <$> d.build := by
  have hs : ∀ s : Statement, s.asBatch.mapSupplied f (fun _ => 0) = (s.mapValues f).asBatch :=
    Batch.mapSupplied_asBatch f
  cases d with
  | select q =>
    simp only [build, mapValues, padding, Select.statement_mapValues, Functor.map_map, hs]
  | update q =>
    simp only [build, mapValues, padding, Update.statement_mapValues, ← Build.map_ofExcept,
      Functor.map_map, hs]
  | delete q =>
    simp only [build, mapValues, padding, Delete.statement_mapValues, ← Build.map_ofExcept,
      Functor.map_map, hs]
  | fastInsert table values options =>
    simp only [build, mapValues, padding, Insert.fast, List.length_map, Insert.row_mapValues,
      ← Build.map_ofExcept, Functor.map_map, hs]
  | columnInsert table columns values options =>
    simp only [build, mapValues, padding, Insert.intoColumns_mapValues, Functor.map_map, hs]
  | boundInsert table b options =>
    simp only [build, mapValues, padding, Insert.ofBindings_mapValues, ← Build.map_ofExcept,
      Functor.map_map, hs]
  | rowsInsert table columns rows options =>
    exact Insert.manyRows_mapValues f table columns rows options
  | listsInsert table columns options => exact Insert.manyColumns_mapValues f table columns options

/-- **Values never reach the text.**  Changing the values of a draft changes neither the errors nor
what is reported nor the text of what is built from it, and every value by itself; the nulls that
pad short rows stay in their places.  The same holds of each expression, and of expressions put
together. -/
theorem substitution (f : Value → Value) :
    (∀ d : Draft, (d.mapValues f).build = Batch.mapSupplied f d.padding <$> d.build ∧
      (d.mapValues f).padding = d.padding ∧
      ∀ b, d.build.result = .ok b → b.Padded d.padding) ∧
    (∀ e : Expr, (e.mapValues f).render = e.render.mapValues f ∧
      (e.mapValues f).shape = e.shape) ∧
    ∀ es : List Expr, Expr.all (es.map (Expr.mapValues f)) = (Expr.all es).map (Expr.mapValues f) ∧
      Expr.any (es.map (Expr.mapValues f)) = (Expr.any es).map (Expr.mapValues f) :=
  ⟨fun d => ⟨build_mapValues f d, padding_mapValues f d, fun _ => padded_build⟩,
    fun e => ⟨Expr.render_mapValues f e, Expr.shape_mapValues f e⟩,
    fun es => ⟨Expr.all_mapValues f es, Expr.any_mapValues f es⟩⟩

end Draft

end BoundSql
