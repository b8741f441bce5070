import BoundSql.Proofs.Faults

/-!
# Statements from their clauses

A query, an update and a deletion consist of clauses in a fixed order.  `Draft.assembled` is the
main statement: one of them is built if and only if no clause has a fault, and then its text and its
values are those of the clauses, one after the other; otherwise the error is the first fault.
Common tables are checked last, although they are written first.
-/

namespace BoundSql

/-- What is built from clauses that may have faults. -/
structure Assembles (valid : Prop) (faults : List Error) (clauses : List Fragment)
    (values : List Value) (r : Except Error Statement) : Prop where
  /-- There is a statement if and only if nothing is wrong. -/
  built : (∃ s, r = .ok s) ↔ valid
  /-- Its text is the texts of the clauses, one after the other. -/
  script : ∀ s, r = .ok s → s.script = "".intercalate (clauses.map Fragment.script)
  /-- Its values are those of the clauses, which only some of them have. -/
  bound : ∀ s, r = .ok s → s.values = clauses.flatMap Fragment.values ∧ s.values = values
  /-- Otherwise the error is the first fault. -/
  refused : ∀ e, r = .error e ↔ faults.head? = some e

theorem assembles_of_eq {valid : Prop} {faults : List Error} {clauses : List Fragment}
    {values : List Value} {r : Except Error Statement}
    (hr : r = unlessFaulty faults (.joined "" clauses)) (hf : faults = [] ↔ valid)
    (hv : clauses.flatMap Fragment.values = values) : Assembles valid faults clauses values r := by
  subst hr hv
  refine ⟨?_, fun s hs => ?_, fun s hs => ?_, fun e => unlessFaulty_eq_error⟩
  · simp only [unlessFaulty_eq_ok, hf]
    exact ⟨fun ⟨_, h, _⟩ => h, fun h => ⟨_, h, rfl⟩⟩
  · obtain ⟨-, rfl⟩ := unlessFaulty_eq_ok.1 hs
    exact Fragment.script_joined "" clauses
  · obtain ⟨-, rfl⟩ := unlessFaulty_eq_ok.1 hs
    exact ⟨Fragment.values_joined "" clauses, Fragment.values_joined "" clauses⟩

/-- Common tables are checked last and written first. -/
theorem CommonTable.before_eq_unlessFaulty (tables : List CommonTable) (s : Statement) :
    before tables s = unlessFaulty (tables.filterMap fault) (written tables ++ s) := by
  rw [before, header_eq_unlessFaulty, ← map_eq_pure_bind, map_unlessFaulty]

namespace Select

/-- A query without a fault. -/
structure Valid (q : Select) : Prop where
  columns : q.columns ≠ some (.many [])
  joins : ∀ j ∈ q.joins, j.Valid
  filter : ∀ w ∈ q.filter, w.Valid
  orderBy : ∀ o ∈ q.orderBy, o.Valid
  tables : ∀ c ∈ q.tables, c.statement.isAligned = true

/-- The faults of a query in the order in which its clauses are checked. -/
def faults (q : Select) : List Error :=
  (Columns.fault q.columns).toList ++ q.joins.filterMap Join.fault ++
    (q.filter.bind Where.fault).toList ++ (q.orderBy.bind OrderBy.fault).toList ++
    q.tables.filterMap CommonTable.fault

/-- The columns and the table of a query. -/
def opening (method : SelectMethod) (columns : Option Columns) (table : String) : Fragment :=
  .text (method.sql ++ " " ++ Columns.written columns ++ " FROM " ++ table)

/-- The clauses of a query in the order in which they are written.  Each one is made of its own
field, and the limit also of whether there is an offset. -/
def clauses (q : Select) : List Fragment :=
  [CommonTable.written q.tables, opening q.method q.columns q.table] ++ q.joins.map Join.written ++
    [Where.written q.filter, OrderBy.written q.orderBy, limitClause q.limit q.offset.isSome,
      offsetClause q.offset]

/-- The values of a query. -/
def values (q : Select) : List Value :=
  CommonTable.values q.tables ++ q.joins.flatMap Join.values ++ Where.values q.filter

/-- The rows that are asked for: with an offset there is a limit in front of it. -/
def page : Option Nat → Option Nat → String
  | none, none => ""
  | some limit, none => " LIMIT " ++ toString limit
  | none, some offset => " LIMIT -1" ++ (" OFFSET " ++ toString offset)
  | some limit, some offset => " LIMIT " ++ toString limit ++ (" OFFSET " ++ toString offset)

theorem faults_eq_nil {q : Select} : q.faults = [] ↔ q.Valid := by
  simp only [faults, List.append_eq_nil_iff, Option.toList_eq_nil_iff, List.filterMap_eq_nil_iff,
    Option.bind_eq_none_iff, Columns.fault_eq_none, Join.fault_eq_none, Where.fault_eq_none,
    OrderBy.fault_eq_none, CommonTable.fault, Fragment.fault_eq_none]
  constructor
  · rintro ⟨⟨⟨⟨hc, hj⟩, hw⟩, ho⟩, ht⟩
    exact ⟨hc, hj, hw, ho, ht⟩
  · exact fun h => ⟨⟨⟨⟨h.columns, h.joins⟩, h.filter⟩, h.orderBy⟩, h.tables⟩

/-- **A query is its clauses, or the first fault of one.** -/
theorem result_eq_unlessFaulty (q : Select) :
    q.statement.result = unlessFaulty q.faults (.joined "" q.clauses) := by
  have hbase : (base q.method q.columns q.table).result =
      unlessFaulty (Columns.fault q.columns).toList (opening q.method q.columns q.table) := by
    rw [result_base, Columns.list_eq, map_unlessFaulty]
    rfl
  simp only [statement, Build.result_bind, Build.result_ofExcept, hbase,
    Join.clauses_eq_unlessFaulty, Where.clause_eq_unlessFaulty, OrderBy.clause_eq_unlessFaulty,
    CommonTable.before_eq_unlessFaulty]
  -- each step that follows adds its faults behind those before it
  refine Eq.trans (unlessFaulty_bind (unlessFaulty_bind (unlessFaulty_bind
    (unlessFaulty_bind rfl)))) ?_
  simp only [faults, clauses, List.append_assoc, List.cons_append, List.nil_append,
    Fragment.joined_empty_cons, Fragment.joined_empty_append, Fragment.joined_nil,
    Fragment.append_assoc, Fragment.append_empty]

theorem flatMap_values_clauses (q : Select) : q.clauses.flatMap Fragment.values = q.values := by
  have hlimit : (limitClause q.limit q.offset.isSome).values = [] := by rw [limitClause_eq]; rfl
  have hoffset : (offsetClause q.offset).values = [] := by rw [offsetClause_eq]; rfl
  simp only [clauses, values, List.flatMap_append, List.flatMap_cons, List.flatMap_nil,
    List.flatMap_map, CommonTable.values_written, Join.values_written, Where.values_written,
    OrderBy.values_written, opening, Fragment.values_text, hlimit, hoffset, List.append_nil]

theorem limitClause_append_offsetClause (limit offset : Option Nat) :
    limitClause limit offset.isSome ++ offsetClause offset = .text (page limit offset) := by
  cases offset with
  | none => cases limit <;> exact Fragment.append_empty _
  | some m => cases limit <;> rfl

end Select

namespace Update

/-- An update without a fault. -/
structure Valid (q : Update) : Prop where
  assignments : q.assignments ≠ []
  aligned : ∀ a ∈ q.assignments, ∀ e, a.assigned = .expr e → e.render.isAligned = true
  filter : ∀ w ∈ q.filter, w.Valid
  tables : ∀ c ∈ q.tables, c.statement.isAligned = true

/-- The faults of an update in the order in which its clauses are checked. -/
def faults (q : Update) : List Error :=
  Assignment.faults q.assignments ++ (q.filter.bind Where.fault).toList ++
    q.tables.filterMap CommonTable.fault

/-- The clauses of an update in the order in which they are written. -/
def clauses (q : Update) : List Fragment :=
  [CommonTable.written q.tables, target q.onConflict q.table, Assignment.written q.assignments,
    Where.written q.filter]

/-- The values of an update. -/
def values (q : Update) : List Value :=
  CommonTable.values q.tables ++ q.assignments.flatMap (fun a => a.term.values) ++
    Where.values q.filter

theorem faults_eq_nil {q : Update} : q.faults = [] ↔ q.Valid := by
  simp only [faults, List.append_eq_nil_iff, Option.toList_eq_nil_iff, List.filterMap_eq_nil_iff,
    Option.bind_eq_none_iff, Assignment.faults_eq_nil, Where.fault_eq_none, CommonTable.fault,
    Fragment.fault_eq_none]
  constructor
  · rintro ⟨⟨⟨hne, ha⟩, hw⟩, ht⟩
    exact ⟨hne, ha, hw, ht⟩
  · exact fun h => ⟨⟨⟨h.assignments, h.aligned⟩, h.filter⟩, h.tables⟩

/-- **An update is its clauses, or the first fault of one.** -/
theorem statement_eq_unlessFaulty (q : Update) :
    q.statement = unlessFaulty q.faults (.joined "" q.clauses) := by
  simp only [statement, Assignment.clause_eq_unlessFaulty, Where.clause_eq_unlessFaulty,
    CommonTable.before_eq_unlessFaulty]
  refine Eq.trans (unlessFaulty_bind (unlessFaulty_bind rfl)) ?_
  simp only [faults, clauses, List.append_assoc, Fragment.joined_empty_cons, Fragment.joined_nil,
    Fragment.append_assoc, Fragment.append_empty]

theorem flatMap_values_clauses (q : Update) : q.clauses.flatMap Fragment.values = q.values := by
  have htarget : (target q.onConflict q.table).values = [] := by rw [target_eq]; rfl
  simp only [clauses, values, List.flatMap_cons, List.flatMap_nil, CommonTable.values_written,
    Assignment.values_written, Where.values_written, htarget, List.append_nil, List.nil_append,
    List.append_assoc]

end Update

namespace Delete

/-- A deletion without a fault. -/
structure Valid (q : Delete) : Prop where
  filter : ∀ w ∈ q.filter, w.Valid
  tables : ∀ c ∈ q.tables, c.statement.isAligned = true

/-- The faults of a deletion in the order in which its clauses are checked. -/
def faults (q : Delete) : List Error :=
  (q.filter.bind Where.fault).toList ++ q.tables.filterMap CommonTable.fault

/-- The clauses of a deletion in the order in which they are written. -/
def clauses (q : Delete) : List Fragment :=
  [CommonTable.written q.tables, target q.table, Where.written q.filter]

/-- The values of a deletion. -/
def values (q : Delete) : List Value := CommonTable.values q.tables ++ Where.values q.filter

theorem faults_eq_nil {q : Delete} : q.faults = [] ↔ q.Valid := by
  simp only [faults, List.append_eq_nil_iff, Option.toList_eq_nil_iff, List.filterMap_eq_nil_iff,
    Option.bind_eq_none_iff, Where.fault_eq_none, CommonTable.fault, Fragment.fault_eq_none]
  exact ⟨fun h => ⟨h.1, h.2⟩, fun h => ⟨h.filter, h.tables⟩⟩

/-- **A deletion is its clauses, or the first fault of one.** -/
theorem statement_eq_unlessFaulty (q : Delete) :
    q.statement = unlessFaulty q.faults (.joined "" q.clauses) := by
  simp only [statement, Where.clause_eq_unlessFaulty, CommonTable.before_eq_unlessFaulty]
  refine Eq.trans (unlessFaulty_bind rfl) ?_
  simp only [faults, clauses, Fragment.joined_empty_cons, Fragment.joined_nil,
    Fragment.append_empty]

theorem flatMap_values_clauses (q : Delete) : q.clauses.flatMap Fragment.values = q.values := by
  simp only [clauses, values, List.flatMap_cons, List.flatMap_nil, CommonTable.values_written,
    Where.values_written, target, Fragment.values_text, List.append_nil, List.nil_append]

end Delete

/-- **A statement is its clauses in a fixed order, and fails at the first one that is wrong.**  Each
clause is written and checked by itself; only a limit looks at whether an offset follows, so that
there is no offset without one. -/
theorem Draft.assembled :
    (∀ q : Select, Assembles q.Valid q.faults q.clauses q.values q.statement.result ∧
      limitClause q.limit q.offset.isSome ++ offsetClause q.offset =
        .text (Select.page q.limit q.offset)) ∧
    (∀ q : Update, Assembles q.Valid q.faults q.clauses q.values q.statement) ∧
    ∀ q : Delete, Assembles q.Valid q.faults q.clauses q.values q.statement := by
  refine ⟨fun q => ⟨?_, ?_⟩, fun q => ?_, fun q => ?_⟩
  · exact assembles_of_eq q.result_eq_unlessFaulty Select.faults_eq_nil q.flatMap_values_clauses
  · exact Select.limitClause_append_offsetClause q.limit q.offset
  · exact assembles_of_eq q.statement_eq_unlessFaulty Update.faults_eq_nil q.flatMap_values_clauses
  · exact assembles_of_eq q.statement_eq_unlessFaulty Delete.faults_eq_nil q.flatMap_values_clauses

/-- The column list is looked at before the order. -/
example : Build.result (Select.statement
    { table := "t", columns := some (.many []), orderBy := some (.position 0) }) =
      .error (.clause "select" .emptyColumnList) := by
  decide

end BoundSql
