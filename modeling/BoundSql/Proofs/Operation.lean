import BoundSql.Operation
import BoundSql.Proofs.Bulk
import BoundSql.Proofs.SingleInsert

/-!
# Building only

An `Operation` is something that a database is asked to do; it can be carried out, or its statement
can only be built.  Up to the fast insert, carrying it out is building it and then running what was
built (`Database.perform_true`), so what was built tells what is run.

`Database.build_only` is the main statement, about two runs of one operation: one that only builds
asks for no more than the columns of a table, and if both find the same columns, the other one runs
what the first one gives back.
-/

namespace BoundSql

namespace Operation

/-- The operation runs one text for many rows. -/
def isBulk : Operation → Bool
  | insertMany _ _ _ => true
  | _ => false

/-- What is looked up to build the statement: the columns of the table, for rows without names. -/
def lookups : Operation → List Request
  | insert table args _ =>
    match args.resolve "insert" with
    | .ok (.positional _) => [.describeTable table]
    | _ => []
  | insertMany table (.rows _) _ => [.describeTable table]
  | _ => []

/-- If carried out, the operation first tries a statement without column names. -/
def TriesFast (config : Config) : Operation → Prop
  | insert _ args _ =>
    config.fastPath = true ∧ ∃ values, args.resolve "insert" = .ok (.positional values)
  | _ => False

end Operation

namespace Database

variable {σ : Type} (db : Database σ)

theorem finish_false (s : Statement) : db.finish s false = pure (.statement s) := rfl

theorem finish_true (s : Statement) : db.finish s true = db.carryOut (.statement s) := rfl

theorem bind_finish_true (x : Session σ Statement) :
    (x >>= fun s => db.finish s true) = (x >>= fun s => db.finish s false) >>= db.carryOut := by
  simp only [bind_assoc, finish_false, finish_true, pure_bind]

theorem insertIntoColumns_true (table : String) (values : List Value) (options : InsertOptions) :
    db.insertIntoColumns table values { options with execute := true } =
      db.insertIntoColumns table values { options with execute := false } >>= db.carryOut := by
  unfold insertIntoColumns
  rw [bind_assoc]
  congr 1
  funext columns
  exact db.bind_finish_true _

/-- **Carrying out is building and then running what was built**, but for the fast insert. -/
theorem perform_true {op : Operation} (h : ¬ op.TriesFast db.config) :
    db.perform (op.withExecute true) = db.perform (op.withExecute false) >>= db.carryOut := by
  cases op with
  | createTable name t options => exact db.bind_finish_true _
  | dropTable q => rfl
  | insert table args options =>
    simp only [Operation.withExecute, perform, insert]
    cases hr : args.resolve "insert" with
    | error e => rfl
    | ok r =>
      rw [Session.ofExcept_ok_bind, Session.ofExcept_ok_bind]
      cases r with
      | bindings b => exact db.bind_finish_true _
      | positional values =>
        have hslow : db.config.fastPath = false :=
          Bool.eq_false_iff.2 fun hf => h ⟨hf, values, hr⟩
        simp only [hslow, Bool.and_false, Bool.false_eq_true, if_false]
        exact db.insertIntoColumns_true table values options
  | insertMany table input options =>
    simp only [Operation.withExecute, perform, insertMany, bind_assoc, if_true,
      Bool.false_eq_true, if_false, pure_bind]
    rfl
  | select q => exact db.bind_finish_true _
  | update q => exact db.bind_finish_true _
  | delete q => exact db.bind_finish_true _

/-! ### Building only -/

theorem silent_finish_false (s : Statement) : (db.finish s false).Silent :=
  Session.silent_pure _

theorem requests_listColumns (table : String) (st : σ) :
    (db.listColumns table st).requests = [.describeTable table] := by
  refine Session.requests_bind_of_silent (db.describeTable table) (fun ds => ?_) st
  split
  · exact Session.silent_ofExcept _
  · exact Session.silent_pure _

theorem requests_insertIntoColumns_false (table : String) (values : List Value)
    (options : InsertOptions) (st : σ) :
    (db.insertIntoColumns table values { options with execute := false } st).requests =
      [.describeTable table] := by
  refine (Session.requests_bind_of_silent _ (fun columns => ?_) st).trans
    (db.requests_listColumns table st)
  exact (Session.silent_ofBuild _).bind fun s => db.silent_finish_false s

/-- To build a statement, no more is asked than the columns of a table. -/
theorem requests_perform_false (op : Operation) (st : σ) :
    (db.perform (op.withExecute false) st).requests = op.lookups := by
  cases op with
  | createTable name t options =>
    exact (Session.silent_ofExcept _).bind (fun s => db.silent_finish_false s) st
  | dropTable q => exact db.silent_finish_false _ st
  | insert table args options =>
    simp only [Operation.withExecute, perform, insert, Operation.lookups]
    cases args.resolve "insert" with
    | error e => rfl
    | ok r =>
      rw [Session.ofExcept_ok_bind]
      cases r with
      | bindings b => exact (Session.silent_ofExcept _).bind (fun s => db.silent_finish_false s) st
      | positional values => exact db.requests_insertIntoColumns_false table values options st
  | insertMany table input options =>
    refine (Session.requests_bind_of_silent _ (fun b => Session.silent_pure _) st).trans ?_
    cases input with
    | rows rows =>
      exact (Session.requests_bind_of_silent _ (fun _ => Session.silent_ofBuild _) st).trans
        (db.requests_listColumns table st)
    | columns columns => rfl
  | select q => exact (Session.silent_ofBuild _).bind (fun s => db.silent_finish_false s) st
  | update q => exact (Session.silent_ofExcept _).bind (fun s => db.silent_finish_false s) st
  | delete q => exact (Session.silent_ofExcept _).bind (fun s => db.silent_finish_false s) st

/-- To build a statement, the settings do not matter. -/
theorem perform_false_config (op : Operation) (config : Config) :
    perform { db with config } (op.withExecute false) = db.perform (op.withExecute false) := by
  cases op <;> rfl

theorem output_finish_false {x : Session σ Statement} {st : σ} {out : Output}
    (h : ((x >>= fun s => db.finish s false) st).result = .ok out) : ∃ s, out = .statement s := by
  obtain ⟨s, -, hs⟩ := Session.result_bind_eq_ok h
  exact ⟨s, (Except.ok.inj hs).symm⟩

theorem isRectangular_bulkBatch {table : String} {input : BulkInput} {options : InsertOptions}
    {st : σ} {b : Batch} (h : (db.bulkBatch table input options st).result = .ok b) :
    b.IsRectangular := by
  cases input with
  | rows rows =>
    obtain ⟨columns, -, hb⟩ := Session.result_bind_eq_ok h
    exact Insert.isRectangular_manyRows hb
  | columns columns => exact Insert.isRectangular_manyColumns h

/-- What is built for an operation: one statement, or a batch with rows of one length. -/
theorem output_perform_false {op : Operation} {st : σ} {out : Output}
    (h : (db.perform (op.withExecute false) st).result = .ok out) :
    if op.isBulk then ∃ b, out = .batch b ∧ b.IsRectangular else ∃ s, out = .statement s := by
  cases op with
  | createTable name t options => exact db.output_finish_false h
  | dropTable q => exact ⟨q.statement, (Except.ok.inj h).symm⟩
  | insert table args options =>
    obtain ⟨r, -, hr⟩ := Session.result_bind_eq_ok h
    cases r with
    | bindings b => exact db.output_finish_false hr
    | positional values =>
      obtain ⟨columns, -, hc⟩ := Session.result_bind_eq_ok hr
      exact db.output_finish_false hc
  | insertMany table input options =>
    obtain ⟨b, hb, ho⟩ := Session.result_bind_eq_ok h
    exact ⟨b, (Except.ok.inj ho).symm, db.isRectangular_bulkBatch hb⟩
  | select q => exact db.output_finish_false h
  | update q => exact db.output_finish_false h
  | delete q => exact db.output_finish_false h

/-- What is done depends on the engine only as far as it answers. -/
theorem faithful_perform (op : Operation) : (db.perform op).Faithful db.engine := by
  cases op with
  | createTable name t options => exact db.faithful_createTable name t options
  | dropTable q => exact db.faithful_finish _ _
  | insert table args options => exact db.faithful_insert table args options
  | insertMany table input options => exact db.faithful_insertMany table input options
  | select q => exact (Session.faithful_ofBuild _).bind fun s => db.faithful_finish s _
  | update q => exact (Session.faithful_ofExcept _).bind fun s => db.faithful_finish s _
  | delete q => exact (Session.faithful_ofExcept _).bind fun s => db.faithful_finish s _

end Database

/-! ### Two runs -/

/-- Where both dialogues describe a table, they describe it alike. -/
def SameDescriptions (l m : List Exchange) : Prop :=
  ∀ table a b, .describeTable table a ∈ l → .describeTable table b ∈ m → a = b

/-- A dialogue and its result follow from what was built: if that failed, no more is asked and the
error is the same; else what was built is run once, after the lookups, and its outcome is the
result. -/
structure CarriesOut (op : Operation) (built : Except Error Output) (calls : List Exchange)
    (result : Except Error Output) : Prop where
  failed : ∀ e, built = .error e → calls.map Exchange.request = op.lookups ∧ result = .error e
  statement : ∀ s, built = .ok (.statement s) → op.isBulk = false ∧
    ∃ asked answer, asked.map Exchange.request = op.lookups ∧
      calls = asked ++ [.execute s answer] ∧ result = answer.map .rows
  batch : ∀ b, built = .ok (.batch b) → op.isBulk = true ∧ b.IsRectangular ∧
    ∃ asked answer, asked.map Exchange.request = op.lookups ∧
      calls = asked ++ [.executeMany b answer] ∧ result = answer.map .rows
  rows : ∀ rows, built ≠ .ok (.rows rows)

namespace CarriesOut

variable {op : Operation} {asked : List Exchange}

theorem of_error {e : Error} (h : asked.map Exchange.request = op.lookups) :
    CarriesOut op (.error e) asked (.error e) where
  failed := by
    intro e' he
    cases he
    exact ⟨h, rfl⟩
  statement := by
    intro s hs
    cases hs
  batch := by
    intro b hb
    cases hb
  rows := by
    intro rows hr
    cases hr

theorem of_statement (hbulk : op.isBulk = false) {s : Statement} {answer : Except Error (List Row)}
    (h : asked.map Exchange.request = op.lookups) :
    CarriesOut op (.ok (.statement s)) (asked ++ [.execute s answer]) (answer.map .rows) where
  failed := by
    intro e he
    cases he
  statement := by
    intro s' hs
    cases hs
    exact ⟨hbulk, asked, answer, h, rfl, rfl⟩
  batch := by
    intro b hb
    cases hb
  rows := by
    intro rows hr
    cases hr

theorem of_batch (hbulk : op.isBulk = true) {b : Batch} (hb : b.IsRectangular)
    {answer : Except Error (List Row)} (h : asked.map Exchange.request = op.lookups) :
    CarriesOut op (.ok (.batch b)) (asked ++ [.executeMany b answer]) (answer.map .rows) where
  failed := by
    intro e he
    cases he
  statement := by
    intro s hs
    cases hs
  batch := by
    intro b' hb'
    cases hb'
    exact ⟨hbulk, hb, asked, answer, h, rfl, rfl⟩
  rows := by
    intro rows hr
    cases hr

end CarriesOut

theorem Operation.lookups_eq (op : Operation) :
    op.lookups = [] ∨ ∃ table, op.lookups = [.describeTable table] := by
  cases op with
  | insert table args options =>
    simp only [lookups]
    split
    · exact .inr ⟨table, rfl⟩
    · exact .inl rfl
  | insertMany table input options =>
    cases input with
    | rows rows => exact .inr ⟨table, rfl⟩
    | columns columns => exact .inl rfl
  | _ => exact .inl rfl

namespace Database

variable {σ : Type} (db : Database σ)

/-- What is built depends on the descriptions of tables only. -/
theorem result_perform_false {op : Operation} {st st' : σ} {rest : List Exchange}
    (h : SameDescriptions ((db.perform (op.withExecute false)).exchanges db.engine st)
      ((db.perform (op.withExecute false)).exchanges db.engine st' ++ rest)) :
    (db.perform (op.withExecute false) st).result =
      (db.perform (op.withExecute false) st').result := by
  have hasked (st : σ) : (db.perform (op.withExecute false)).exchanges db.engine st =
      db.engine.dialogue st op.lookups := by
    rw [Session.exchanges, db.requests_perform_false]
  rw [hasked, hasked] at h
  have hsame : db.engine.dialogue st op.lookups = db.engine.dialogue st' op.lookups := by
    rcases op.lookups_eq with hl | ⟨table, hl⟩
    · rw [hl]
      rfl
    · rw [hl] at h ⊢
      have hans := h table _ _ List.mem_cons_self (List.mem_append_left rest List.mem_cons_self)
      exact congrArg (fun a => [Exchange.describeTable table a]) hans
  refine ((db.faithful_perform (op.withExecute false)).learned st st' [] [] ?_).2
  rw [hasked, hasked, hsame]

theorem exchanges_carryOut_statement (s : Statement) (st : σ) :
    ∃ answer, (db.carryOut (.statement s)).exchanges db.engine st = [.execute s answer] ∧
      (db.carryOut (.statement s) st).result = answer.map .rows :=
  db.exchanges_finish s true st

theorem exchanges_carryOut_batch (b : Batch) (st : σ) :
    ∃ answer, (db.carryOut (.batch b)).exchanges db.engine st = [.executeMany b answer] ∧
      (db.carryOut (.batch b) st).result = answer.map .rows :=
  ⟨(db.engine.executeMany b st).1, Session.exchanges_bind_pure (db.executeMany b) _ st,
    Session.result_bind_pure (db.executeMany b) _ st⟩

/-- Carrying out an operation follows from what is built for it, but for the fast insert. -/
theorem carriesOut {op : Operation} (hslow : ¬ op.TriesFast db.config) {st st' : σ}
    (h : SameDescriptions ((db.perform (op.withExecute false)).exchanges db.engine st)
      ((db.perform (op.withExecute true)).exchanges db.engine st')) :
    CarriesOut op (db.perform (op.withExecute false) st).result
      ((db.perform (op.withExecute true)).exchanges db.engine st')
      (db.perform (op.withExecute true) st').result := by
  rw [db.perform_true hslow] at h ⊢
  have hb := db.faithful_perform (op.withExecute false)
  obtain ⟨rest, hrest⟩ := hb.exists_exchanges_bind db.carryOut st'
  rw [db.result_perform_false (hrest ▸ h)]
  have hasked : ((db.perform (op.withExecute false)).exchanges db.engine st').map
      Exchange.request = op.lookups := by
    rw [Session.exchanges, Engine.map_request_dialogue, db.requests_perform_false]
  cases hr : (db.perform (op.withExecute false) st').result with
  | error e =>
    rw [Session.exchanges_bind_of_error hr, Session.bind_of_error hr]
    exact .of_error hasked
  | ok out =>
    rw [hb.exchanges_bind hr, Session.bind_of_ok hr]
    have hout := db.output_perform_false hr
    split at hout
    · rename_i hbulk
      obtain ⟨b, rfl, hrect⟩ := hout
      obtain ⟨answer, hx, ha⟩ := db.exchanges_carryOut_batch b
        (db.perform (op.withExecute false) st').state
      rw [hx, ha]
      exact .of_batch hbulk hrect hasked
    · rename_i hbulk
      obtain ⟨s, rfl⟩ := hout
      obtain ⟨answer, hx, ha⟩ := db.exchanges_carryOut_statement s
        (db.perform (op.withExecute false) st').state
      rw [hx, ha]
      exact .of_statement (Bool.eq_false_iff.2 hbulk) hasked

end Database

/-! ### The fast insert -/

/-- A statement that is run for the columns of a table was built for these. -/
theorem ColumnInsert.mem_execute {table : String} {values : List Value} {options : InsertOptions}
    {calls : List Exchange} {result : Except Error Output}
    (h : ColumnInsert table values options calls result) {s : Statement}
    {answer : Except Error (List Row)} (hs : .execute s answer ∈ calls) :
    ∃ ds, .describeTable table (.ok ds) ∈ calls ∧ ds ≠ [] ∧
      (Insert.intoColumns table (ds.map ColumnDescriptor.name) values options).result = .ok s := by
  cases h with
  | ran answer' hne hs' _ =>
    obtain ⟨rfl, -⟩ : s = _ ∧ answer = answer' := by simpa using hs
    exact ⟨_, List.mem_cons_self, hne, hs'⟩
  | _ => simp at hs

/-- With the same description of the table, that statement is built if it is not run. -/
theorem ColumnInsert.result_of_described {table : String} {values : List Value}
    {options : InsertOptions} {calls : List Exchange} {result : Except Error Output}
    (h : ColumnInsert table values options calls result) (hb : options.execute = false)
    {ds : List ColumnDescriptor} (hne : ds ≠ [])
    (hds : ∀ answer, .describeTable table answer ∈ calls → answer = .ok ds) {s : Statement}
    (hs : (Insert.intoColumns table (ds.map ColumnDescriptor.name) values options).result = .ok s) :
    result = .ok (.statement s) := by
  cases h with
  | undescribed e => cases hds _ List.mem_cons_self
  | missing =>
    cases hds _ List.mem_cons_self
    exact absurd rfl hne
  | unbuilt _ hf =>
    cases hds _ List.mem_cons_self
    cases hs.symm.trans hf
  | built _ hs' _ =>
    cases hds _ List.mem_cons_self
    cases hs.symm.trans hs'
    rfl
  | ran _ _ _ hx => cases hb.symm.trans hx

/-- A fast insert that goes on after its first statement goes on as an insert for the columns. -/
theorem SingleInsert.tail {config : Config} {table : String} {args : Arguments}
    {options : InsertOptions} {calls : List Exchange} {result : Except Error Output}
    (h : SingleInsert config table args options calls result)
    (hf : (options.execute && config.fastPath) = true) {values : List Value}
    (hr : args.resolve "insert" = .ok (.positional values)) (hne : calls.tail ≠ []) :
    ColumnInsert table values options calls.tail result := by
  cases h with
  | direct _ hslow _ => cases hf.symm.trans hslow
  | retried hr' _ _ _ hc =>
    cases hr.symm.trans hr'
    exact hc
  | _ => exact absurd rfl hne

/-- An insert of values that is only built is one for the columns of the table. -/
theorem SingleInsert.building {config : Config} {table : String} {args : Arguments}
    {options : InsertOptions} {calls : List Exchange} {result : Except Error Output}
    (h : SingleInsert config table args options calls result) (hb : options.execute = false)
    {values : List Value} (hr : args.resolve "insert" = .ok (.positional values)) :
    ColumnInsert table values options calls result := by
  cases h with
  | direct hr' _ hc =>
    cases hr.symm.trans hr'
    exact hc
  | _ => simp_all

namespace Database

variable {σ : Type} (db : Database σ)

/-- A statement that is run after the fast one has failed is the one that is built. -/
theorem result_of_mem_tail {op : Operation} (hfast : op.TriesFast db.config) {st st' : σ}
    (h : SameDescriptions ((db.perform (op.withExecute false)).exchanges db.engine st)
      ((db.perform (op.withExecute true)).exchanges db.engine st'))
    {s : Statement} {answer : Except Error (List Row)}
    (hs : .execute s answer ∈ ((db.perform (op.withExecute true)).exchanges db.engine st').tail) :
    (db.perform (op.withExecute false) st).result = .ok (.statement s) := by
  cases op with
  | insert table args options =>
    obtain ⟨hpath, values, hr⟩ := hfast
    have hf : ((true : Bool) && db.config.fastPath) = true := hpath
    have ran := (db.singleInsert table args { options with execute := true } st').tail hf hr
      (List.ne_nil_of_mem hs)
    have built := (db.singleInsert table args { options with execute := false } st).building rfl hr
    obtain ⟨ds, hds, hne, hs'⟩ := ran.mem_execute hs
    exact built.result_of_described rfl hne
      (fun answer ha => h table answer _ ha (List.mem_of_mem_tail hds)) hs'
  | _ => exact hfast.elim

/-- **Building only gives back what is run.**  An operation that is only built asks for no more than
the columns of a table, whatever the settings, and of two runs that find the same columns, the one
that carries the operation out runs what the other one gives back, or fails as it does.  If a fast
insert is tried first, this holds of a statement that is run after it. -/
theorem build_only (op : Operation) (st st' : σ) :
    let built := db.perform (op.withExecute false) st
    let ran := db.perform (op.withExecute true) st'
    let asked := db.engine.dialogue st built.requests
    let calls := db.engine.dialogue st' ran.requests
    (built.requests = op.lookups ∧ ∀ r ∈ built.requests, r.isRun = false) ∧
      (∀ config, perform { db with config } (op.withExecute false) st = built) ∧
      (built.state = db.engine.after st built.requests ∧
        ran.state = db.engine.after st' ran.requests) ∧
      (SameDescriptions asked calls →
        (¬ op.TriesFast db.config → CarriesOut op built.result calls ran.result) ∧
        (op.TriesFast db.config → ∀ s answer, .execute s answer ∈ calls.tail →
          built.result = .ok (.statement s))) := by
  intro built ran asked calls
  have hasked : built.requests = op.lookups := db.requests_perform_false op st
  refine ⟨⟨hasked, fun r hr => ?_⟩, fun config => ?_,
    ⟨(db.faithful_perform _).state st, (db.faithful_perform _).state st'⟩, fun h =>
    ⟨fun hslow => db.carriesOut hslow h, fun hfast s answer => db.result_of_mem_tail hfast h⟩⟩
  · rw [hasked] at hr
    rcases op.lookups_eq with hl | ⟨table, hl⟩
    · rw [hl] at hr
      cases hr
    · rw [hl] at hr
      cases List.mem_singleton.1 hr
      rfl
  · rw [db.perform_false_config op config]

/-- Three values for two columns: the fast statement is refused, and then what is run is what a
build gives back.  A bulk insert is run as it is built. -/
theorem build_only_cropped :
    let db : Database (List Row) := ⟨TwoColumns.engine, { fastPath := true }⟩
    let op : Operation := .insert "t" ⟨[.sequence [.integer 1, .null, .integer 3]], []⟩ {}
    let built := db.perform (op.withExecute false) []
    let ran := db.perform (op.withExecute true) []
    let s : Statement := ⟨"INSERT INTO t (a, b) VALUES (?, ?)", [.integer 1, .null]⟩
    SameDescriptions (db.engine.dialogue [] built.requests) (db.engine.dialogue [] ran.requests) ∧
      op.TriesFast db.config ∧
      .execute s (.ok []) ∈ (db.engine.dialogue [] ran.requests).tail ∧
      built.result = .ok (.statement s) ∧ built.requests = [.describeTable "t"] ∧
      let bulk : Operation := .insertMany "t" (.columns [("a", [.integer 1, .integer 2])]) {}
      let b : Batch := ⟨"INSERT INTO t (a) VALUES (?)", [[.integer 1], [.integer 2]]⟩
      ¬ bulk.TriesFast db.config ∧
        CarriesOut bulk (.ok (.batch b)) [.executeMany b (.ok [])] (.ok (.rows [])) := by
  intro db op built ran s
  let ds : List ColumnDescriptor := [⟨1, "a"⟩, ⟨2, "b"⟩]
  have hcalls : db.engine.dialogue [] ran.requests =
      [.execute ⟨"INSERT INTO t VALUES (?, ?, ?)", [.integer 1, .null, .integer 3]⟩
        (.error (TwoColumns.countFailure 3)), .describeTable "t" (.ok ds), .execute s (.ok [])] :=
    rfl
  have hasked : db.engine.dialogue [] built.requests = [.describeTable "t" (.ok ds)] := rfl
  have hsame : SameDescriptions (db.engine.dialogue [] built.requests)
      (db.engine.dialogue [] ran.requests) := by
    intro table a b ha hb
    rw [hasked] at ha
    rw [hcalls] at hb
    simp only [List.mem_cons, Exchange.describeTable.injEq, reduceCtorEq, List.not_mem_nil,
      or_false, false_or] at ha hb
    rw [ha.2, hb.2]
  have hfast : op.TriesFast db.config := ⟨rfl, _, rfl⟩
  have hrun : .execute s (.ok []) ∈ (db.engine.dialogue [] ran.requests).tail := by
    rw [hcalls]
    simp only [List.tail_cons, List.mem_cons, reduceCtorEq, false_or, true_or]
  obtain ⟨⟨hlookups, -⟩, -, -, htwo⟩ := db.build_only op [] []
  refine ⟨hsame, hfast, hrun, (htwo hsame).2 hfast s _ hrun, hlookups, id, ?_⟩
  have hbulk := db.build_only
    (.insertMany "t" (.columns [("a", [.integer 1, .integer 2])]) {}) [] []
  exact (hbulk.2.2.2 fun _ _ _ h => absurd h List.not_mem_nil).1 id

end Database

end BoundSql
