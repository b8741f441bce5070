import BoundSql.Engine.Scripted
import BoundSql.Proofs.Creation.Statement
import BoundSql.Proofs.Dialogue

/-!
# Creating the tables of a template

The tables of a template are created one after the other, up to the first one that has no statement
or that the engine refuses.  `CreatesTables` lists the ways in which this can go, whatever the
engine answers, and `BuildsTables` those in which it can go if the statements are only to be built.
In all of them the tables in front of the first failure are done with, and those behind it have not
been tried.  `Database.creates_in_order` is the main statement: there are no other ways.
-/

namespace BoundSql

/-- The statement is the one that creates the table, and it has no values. -/
structure CreatesTable (options : CreateOptions) (table : String × TableDef) (s : Statement) :
    Prop where
  built : table.2.create table.1 options = .ok s
  values : s.values = []

theorem CreatesTable.of_built {options : CreateOptions} {name : String} {t : TableDef}
    {s : Statement} (h : t.create name options = .ok s) : CreatesTable options (name, t) s :=
  ⟨h, TableDef.values_of_create h⟩

/-- A statement that was run, and the rows that it gave. -/
structure Ran where
  statement : Statement
  rows : List Row

namespace Ran

/-- What was asked and answered. -/
def exchange (r : Ran) : Exchange := .execute r.statement (.ok r.rows)

/-- What is given back. -/
def output (r : Ran) : Output := .rows r.rows

end Ran

/-- How it can go to create tables one after the other. -/
inductive CreatesTables (options : CreateOptions) :
    List (String × TableDef) → List Exchange → Except Error (List Output) → Prop where
  /-- All tables are created. -/
  | all {tables : List (String × TableDef)} {ran : List Ran}
    (created : List.Forall₂ (fun table r => CreatesTable options table r.statement) tables ran) :
    CreatesTables options tables (ran.map Ran.exchange) (.ok (ran.map Ran.output))
  /-- The first tables are created, and the next one has no statement. -/
  | unbuilt {first : List (String × TableDef)} {ran : List Ran}
    (created : List.Forall₂ (fun table r => CreatesTable options table r.statement) first ran)
    {name : String} {t : TableDef} {e : Error} (failed : t.create name options = .error e)
    (rest : List (String × TableDef)) :
    CreatesTables options (first ++ (name, t) :: rest) (ran.map Ran.exchange) (.error e)
  /-- The first tables are created, and the engine refuses the next one. -/
  | refused {first : List (String × TableDef)} {ran : List Ran}
    (created : List.Forall₂ (fun table r => CreatesTable options table r.statement) first ran)
    {table : String × TableDef} {s : Statement} (next : CreatesTable options table s) (e : Error)
    (rest : List (String × TableDef)) :
    CreatesTables options (first ++ table :: rest)
      (ran.map Ran.exchange ++ [.execute s (.error e)]) (.error e)

/-- How it can go to build the statements of tables one after the other. -/
inductive BuildsTables (options : CreateOptions) :
    List (String × TableDef) → Except Error (List Output) → Prop where
  /-- All tables have statements. -/
  | all {tables : List (String × TableDef)} {statements : List Statement}
    (built : List.Forall₂ (CreatesTable options) tables statements) :
    BuildsTables options tables (.ok (statements.map .statement))
  /-- The first tables have statements, and the next one has none. -/
  | unbuilt {first : List (String × TableDef)} {statements : List Statement}
    (built : List.Forall₂ (CreatesTable options) first statements) {name : String} {t : TableDef}
    {e : Error} (failed : t.create name options = .error e) (rest : List (String × TableDef)) :
    BuildsTables options (first ++ (name, t) :: rest) (.error e)

section

variable {options : CreateOptions} {tables : List (String × TableDef)} {calls : List Exchange}
  {result : Except Error (List Output)} {table : String × TableDef} {s : Statement}

/-- One more table is created before the others. -/
theorem CreatesTables.cons (h : CreatesTables options tables calls result)
    (hs : CreatesTable options table s) (rows : List Row) :
    CreatesTables options (table :: tables) (.execute s (.ok rows) :: calls)
      (result.map (.rows rows :: ·)) := by
  let r : Ran := ⟨s, rows⟩
  have hr : CreatesTable options table r.statement := hs
  cases h with
  | all created => exact .all (.cons hr created)
  | unbuilt created failed rest => exact .unbuilt (.cons hr created) failed rest
  | refused created next e rest => exact .refused (.cons hr created) next e rest

/-- One more statement is built before the others. -/
theorem BuildsTables.cons (h : BuildsTables options tables result)
    (hs : CreatesTable options table s) :
    BuildsTables options (table :: tables) (result.map (.statement s :: ·)) := by
  cases h with
  | all built => exact .all (.cons hs built)
  | unbuilt built failed rest => exact .unbuilt (.cons hs built) failed rest

end

namespace Database

variable {σ : Type} (db : Database σ)

theorem faithful_createTables (template : Template) (options : CreateOptions) :
    (db.createTables template options).Faithful db.engine := by
  refine Session.faithful_mapM ?_ template.tables
  rintro ⟨name, t⟩
  exact db.faithful_createTable name t options

/-- A table without a statement is an error, and nothing is asked for it. -/
theorem createTable_of_error {name : String} {t : TableDef} {options : CreateOptions} {e : Error}
    (h : t.create name options = .error e) : db.createTable name t options = Session.fail e := by
  rw [createTable, h, Session.ofExcept_error_bind]

theorem createTable_of_ok {name : String} {t : TableDef} {options : CreateOptions} {s : Statement}
    (h : t.create name options = .ok s) :
    db.createTable name t options = db.finish s options.execute := by
  rw [createTable, h, Session.ofExcept_ok_bind]

/-- The other tables come after the first one. -/
theorem createTables_cons (name : String) (t : TableDef) (tables : List (String × TableDef))
    (options : CreateOptions) :
    db.createTables ⟨(name, t) :: tables⟩ options =
      db.createTable name t options >>= fun output =>
        db.createTables ⟨tables⟩ options >>= fun outputs => pure (output :: outputs) :=
  List.mapM_cons

/-- What is asked and answered when tables are created. -/
theorem createsTables (tables : List (String × TableDef)) {options : CreateOptions}
    (hx : options.execute = true) (st : σ) :
    CreatesTables options tables ((db.createTables ⟨tables⟩ options).exchanges db.engine st)
      (db.createTables ⟨tables⟩ options st).result := by
  induction tables generalizing st with
  | nil => exact .all .nil
  | cons table tables ih =>
    obtain ⟨name, t⟩ := table
    rw [createTables_cons]
    cases hs : t.create name options with
    | error e =>
      rw [db.createTable_of_error hs]
      exact .unbuilt .nil hs tables
    | ok s =>
      have hfaithful := db.faithful_finish s options.execute
      have hfinish := db.exchanges_finish s options.execute st
      rw [if_pos hx] at hfinish
      obtain ⟨answer, hcalls, hresult⟩ := hfinish
      rw [db.createTable_of_ok hs]
      cases answer with
      | error e =>
        -- the engine refuses the table, and the others are not tried
        rw [Session.exchanges_bind_of_error hresult, Session.bind_of_error hresult, hcalls]
        exact .refused .nil (.of_built hs) e tables
      | ok rows =>
        rw [hfaithful.exchanges_bind hresult, Session.bind_of_ok hresult, hcalls]
        -- the others are tried in the state that the engine is left in
        generalize (db.finish s options.execute st).state = st'
        rw [Session.exchanges_bind_pure, Session.result_bind_pure]
        exact (ih st').cons (.of_built hs) rows

/-- What is built when tables are not to be created. -/
theorem buildsTables (tables : List (String × TableDef)) {options : CreateOptions}
    (hx : options.execute = false) (st : σ) :
    (db.createTables ⟨tables⟩ options st).requests = [] ∧
      BuildsTables options tables (db.createTables ⟨tables⟩ options st).result := by
  induction tables generalizing st with
  | nil => exact ⟨rfl, .all .nil⟩
  | cons table tables ih =>
    obtain ⟨name, t⟩ := table
    rw [createTables_cons]
    cases hs : t.create name options with
    | error e =>
      rw [db.createTable_of_error hs]
      exact ⟨rfl, .unbuilt .nil hs tables⟩
    | ok s =>
      obtain ⟨hrequests, hbuilt⟩ := ih st
      have hsilent := Session.requests_bind_of_silent (db.createTables ⟨tables⟩ options)
        (fun outputs => Session.silent_pure (Output.statement s :: outputs)) st
      rw [db.createTable_of_ok hs, hx, finish, if_neg Bool.false_ne_true, pure_bind]
      rw [hsilent, Session.result_bind_pure]
      exact ⟨hrequests, hbuilt.cons (.of_built hs)⟩

/-- **The tables of a template are created in their order, up to the first failure.**  Whatever the
engine answers, it is asked for the statements of the first tables only; all of them but the last
one were run, and the last one was too unless its failure is the result.  If the statements are
only to be built, the engine is asked nothing. -/
theorem creates_in_order (template : Template) (options : CreateOptions) (st : σ) :
    let run := db.createTables template options st
    run.state = db.engine.after st run.requests ∧
      if options.execute then
        CreatesTables options template.tables (db.engine.dialogue st run.requests) run.result
      else run.requests = [] ∧ BuildsTables options template.tables run.result := by
  refine ⟨(db.faithful_createTables template options).state st, ?_⟩
  split
  · rename_i hx
    exact db.createsTables template.tables hx st
  · rename_i hx
    exact db.buildsTables template.tables (Bool.eq_false_iff.2 hx) st

/-- A table without columns is not created, nor is any table behind it. -/
example :
    let t : TableDef := { columns := [("n", .one (.keyword .integer))] }
    let db : Database (List Engine.ScriptedOutcome) := ⟨Engine.scripted [], {}⟩
    let run := db.createTables ⟨[("a", t), ("b", {}), ("c", t)]⟩ {} []
    run.requests = [.execute (.text "CREATE TABLE a (n INTEGER)")] ∧
      run.result = .error (.noData "create_table") :=
  ⟨by cbv, rfl⟩

end Database

end BoundSql
