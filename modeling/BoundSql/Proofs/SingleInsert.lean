import BoundSql.Proofs.Dialogue
import BoundSql.Proofs.FastInsert

/-!
# The dialogue of a single insert

A single insert asks the engine at most three things: to run the statement without column names, for
the columns of the table, and to run the statement for these columns.  `SingleInsert` lists all ways
in which the dialogue can go, whatever the engine answers, with the result of each
(`Database.singleInsert`).

`Database.inserts_once` is the main statement: nothing is asked after a statement has run, so no row
is inserted twice, and a failed statement is only followed by another one if it may have failed for
the number of its values.
-/

namespace BoundSql

/-! ### Statements for the columns of a table -/

/-- What can be built without column names can be built for the columns of a table, if there are
any. -/
theorem Insert.exists_intoColumns_of_fast {table : String} {values : List Value}
    {options : InsertOptions} {s : Statement} (h : fast table values options = .ok s)
    {columns : List String} (hc : columns ≠ []) :
    ∃ s', (intoColumns table columns values options).result = .ok s' := by
  have hv : values ≠ [] := by
    rintro rfl
    cases h
  have hcl : 0 < columns.length := List.length_pos_iff.2 hc
  have hvl : 0 < values.length := List.length_pos_iff.2 hv
  have hkeep : (columns.take (min columns.length values.length)).length ≠ 0 := by
    rw [List.length_take]
    omega
  rw [fast, row_of_ne_zero (Nat.ne_of_gt hvl)] at h
  obtain ⟨w, hw, -⟩ := map_eq_ok.1 h
  rw [result_intoColumns]
  simp only
  rw [row_of_ne_zero hkeep, hw]
  exact ⟨_, rfl⟩

/-! ### All dialogues -/

/-- How an insert for the columns of a table can go. -/
inductive ColumnInsert (table : String) (values : List Value) (options : InsertOptions) :
    List Exchange → Except Error Output → Prop where
  /-- The columns cannot be looked up. -/
  | undescribed (e : Error) :
    ColumnInsert table values options [.describeTable table (.error e)] (.error e)
  /-- There is no such table. -/
  | missing :
    ColumnInsert table values options [.describeTable table (.ok [])] (.error (.noSuchTable table))
  /-- No statement can be built. -/
  | unbuilt {ds : List ColumnDescriptor} {e : Error} (columns : ds ≠ [])
    (failed : (Insert.intoColumns table (ds.map ColumnDescriptor.name) values options).result =
      .error e) :
    ColumnInsert table values options [.describeTable table (.ok ds)] (.error e)
  /-- The statement is only built. -/
  | built {ds : List ColumnDescriptor} {s : Statement} (columns : ds ≠ [])
    (statement : (Insert.intoColumns table (ds.map ColumnDescriptor.name) values options).result =
      .ok s) (only : options.execute = false) :
    ColumnInsert table values options [.describeTable table (.ok ds)] (.ok (.statement s))
  /-- The statement is run. -/
  | ran {ds : List ColumnDescriptor} {s : Statement} (answer : Except Error (List Row))
    (columns : ds ≠ [])
    (statement : (Insert.intoColumns table (ds.map ColumnDescriptor.name) values options).result =
      .ok s) (run : options.execute = true) :
    ColumnInsert table values options [.describeTable table (.ok ds), .execute s answer]
      (answer.map .rows)

/-- How a single insert can go. -/
inductive SingleInsert (config : Config) (table : String) (args : Arguments)
    (options : InsertOptions) : List Exchange → Except Error Output → Prop where
  /-- The arguments have no shape. -/
  | unresolved {e : Error} (failed : args.resolve "insert" = .error e) :
    SingleInsert config table args options [] (.error e)
  /-- No statement can be built from the bindings. -/
  | unbound {b : Bindings} {e : Error} (resolved : args.resolve "insert" = .ok (.bindings b))
    (failed : Insert.ofBindings table b options = .error e) :
    SingleInsert config table args options [] (.error e)
  /-- The statement of the bindings is only built. -/
  | bound {b : Bindings} {s : Statement} (resolved : args.resolve "insert" = .ok (.bindings b))
    (statement : Insert.ofBindings table b options = .ok s) (only : options.execute = false) :
    SingleInsert config table args options [] (.ok (.statement s))
  /-- The statement of the bindings is run. -/
  | boundRan {b : Bindings} {s : Statement} (answer : Except Error (List Row))
    (resolved : args.resolve "insert" = .ok (.bindings b))
    (statement : Insert.ofBindings table b options = .ok s) (run : options.execute = true) :
    SingleInsert config table args options [.execute s answer] (answer.map .rows)
  /-- The values are inserted for the columns of the table at once. -/
  | direct {values : List Value} {calls : List Exchange} {result : Except Error Output}
    (resolved : args.resolve "insert" = .ok (.positional values))
    (slow : (options.execute && config.fastPath) = false)
    (columns : ColumnInsert table values options calls result) :
    SingleInsert config table args options calls result
  /-- No statement without column names can be built. -/
  | unbuilt {values : List Value} {e : Error}
    (resolved : args.resolve "insert" = .ok (.positional values))
    (fast : (options.execute && config.fastPath) = true)
    (failed : Insert.fast table values options = .error e) :
    SingleInsert config table args options [] (.error e)
  /-- The statement without column names ran. -/
  | fastRan {values : List Value} {s : Statement} (rows : List Row)
    (resolved : args.resolve "insert" = .ok (.positional values))
    (fast : (options.execute && config.fastPath) = true)
    (statement : Insert.fast table values options = .ok s) :
    SingleInsert config table args options [.execute s (.ok rows)] (.ok (.rows rows))
  /-- It failed, but not for the number of values. -/
  | fastFailed {values : List Value} {s : Statement} {e : Error}
    (resolved : args.resolve "insert" = .ok (.positional values))
    (fast : (options.execute && config.fastPath) = true)
    (statement : Insert.fast table values options = .ok s) (arity : e.isArityFailure = false) :
    SingleInsert config table args options [.execute s (.error e)] (.error e)
  /-- It may have failed for the number of values, and the insert is made for the columns. -/
  | retried {values : List Value} {s : Statement} {e : Error} {calls : List Exchange}
    {result : Except Error Output} (resolved : args.resolve "insert" = .ok (.positional values))
    (fast : (options.execute && config.fastPath) = true)
    (statement : Insert.fast table values options = .ok s) (arity : e.isArityFailure = true)
    (columns : ColumnInsert table values options calls result) :
    SingleInsert config table args options (.execute s (.error e) :: calls) result

namespace Database

variable {σ : Type} (db : Database σ)

/-- What is asked and answered when values are inserted for the columns of a table. -/
theorem columnInsert (table : String) (values : List Value) (options : InsertOptions) (st : σ) :
    ColumnInsert table values options
      ((db.insertIntoColumns table values options).exchanges db.engine st)
      (db.insertIntoColumns table values options st).result := by
  obtain ⟨hx, hr⟩ := db.exchanges_listColumns table st
  have hl := db.faithful_listColumns table
  unfold insertIntoColumns
  cases hd : (db.engine.describeTable table st).1 with
  | error e =>
    rw [hd] at hx hr
    have hr : (db.listColumns table st).result = .error e := hr
    rw [Session.exchanges_bind_of_error hr, hx, Session.bind_of_error hr]
    exact .undescribed e
  | ok ds =>
    rw [hd] at hx hr
    by_cases hne : ds = []
    · subst hne
      have hr : (db.listColumns table st).result = .error (.noSuchTable table) := hr
      rw [Session.exchanges_bind_of_error hr, hx, Session.bind_of_error hr]
      exact .missing
    · have hr : (db.listColumns table st).result = .ok (ds.map ColumnDescriptor.name) := by
        rw [hr]
        exact if_neg (by rwa [List.isEmpty_iff])
      rw [hl.exchanges_bind hr, hx, Session.bind_of_ok hr]
      generalize (db.listColumns table st).state = st'
      cases hs :
          (Insert.intoColumns table (ds.map ColumnDescriptor.name) values options).result with
      | error e =>
        obtain ⟨hbx, hbr⟩ := Session.exchanges_ofBuild_bind_of_error db.engine hs
          (fun s => db.finish s options.execute) st'
        rw [hbx, hbr]
        exact .unbuilt hne hs
      | ok s =>
        obtain ⟨hbx, hbr⟩ := Session.exchanges_ofBuild_bind db.engine hs
          (fun s => db.finish s options.execute) st'
        rw [hbx, hbr]
        have hf := db.exchanges_finish s options.execute st'
        split at hf
        · rename_i he
          obtain ⟨answer, hfx, hfr⟩ := hf
          rw [hfx, hfr]
          exact .ran answer hne hs he
        · rename_i he
          rw [hf.1, hf.2]
          exact .built hne hs (Bool.eq_false_iff.2 he)

/-- What is asked and answered in a single insert. -/
theorem singleInsert (table : String) (args : Arguments) (options : InsertOptions) (st : σ) :
    SingleInsert db.config table args options
      ((db.insert table args options).exchanges db.engine st)
      (db.insert table args options st).result := by
  unfold insert
  cases hr : args.resolve "insert" with
  | error e =>
    rw [Session.ofExcept_error_bind]
    exact .unresolved hr
  | ok r =>
    rw [Session.ofExcept_ok_bind]
    cases r with
    | bindings b =>
      simp only
      cases hs : Insert.ofBindings table b options with
      | error e =>
        rw [Session.ofExcept_error_bind]
        exact .unbound hr hs
      | ok s =>
        rw [Session.ofExcept_ok_bind]
        have hf := db.exchanges_finish s options.execute st
        split at hf
        · rename_i he
          obtain ⟨answer, hfx, hfr⟩ := hf
          rw [hfx, hfr]
          exact .boundRan answer hr hs he
        · rename_i he
          rw [hf.1, hf.2]
          exact .bound hr hs (Bool.eq_false_iff.2 he)
    | positional values =>
      simp only
      split
      · rename_i hf
        unfold insertFast
        cases hs : Insert.fast table values options with
        | error e =>
          rw [Session.ofExcept_error_bind]
          exact .unbuilt hr hf hs
        | ok s =>
          rw [Session.ofExcept_ok_bind]
          have ha : ((db.execute s).attempt st).result = .ok (db.engine.execute s st).1 := rfl
          have hx : (db.execute s).attempt.exchanges db.engine st =
              [.execute s (db.engine.execute s st).1] := rfl
          rw [(db.faithful_execute s).attempt.exchanges_bind ha, Session.bind_of_ok ha, hx]
          generalize ((db.execute s).attempt st).state = st'
          cases (db.engine.execute s st).1 with
          | ok rows => exact .fastRan rows hr hf hs
          | error e =>
            simp only
            split
            · rename_i hea
              exact .retried hr hf hs hea (db.columnInsert table values options st')
            · rename_i hea
              exact .fastFailed hr hf hs (Bool.eq_false_iff.2 hea)
      · rename_i hf
        exact .direct hr (Bool.eq_false_iff.2 hf) (db.columnInsert table values options st)

end Database

/-! ### What all dialogues have in common -/

/-- The exchange runs a statement, with whatever outcome. -/
def Exchange.isExecute : Exchange → Bool
  | execute _ _ => true
  | _ => false

/-- How a dialogue goes on after a failure that may be about the number of values: the columns
cannot be looked up, or there are none, or the statement for them is built and run. -/
def Retried (table : String) (values : List Value) (options : InsertOptions)
    (calls : List Exchange) (result : Except Error Output) : Prop :=
  (∃ e, calls = [.describeTable table (.error e)] ∧ result = .error e) ∨
  (calls = [.describeTable table (.ok [])] ∧ result = .error (.noSuchTable table)) ∨
  ∃ ds s answer, ds ≠ [] ∧
    (Insert.intoColumns table (ds.map ColumnDescriptor.name) values options).result = .ok s ∧
    calls = [.describeTable table (.ok ds), .execute s answer] ∧ result = answer.map .rows

/-- What a single insert may ask of the engine, and what it makes of the answers. -/
structure InsertsOnce (config : Config) (table : String) (args : Arguments)
    (options : InsertOptions) (calls : List Exchange) (result : Except Error Output) : Prop where
  /-- Arguments without a shape are refused and nothing is asked. -/
  unresolved : ∀ e, args.resolve "insert" = .error e → calls = [] ∧ result = .error e
  /-- So are bindings from which no statement can be built. -/
  unbound : ∀ b e, args.resolve "insert" = .ok (.bindings b) →
    Insert.ofBindings table b options = .error e → calls = [] ∧ result = .error e
  /-- So are values from which no statement without column names can be built, if one is tried. -/
  unbuilt : ∀ values e, args.resolve "insert" = .ok (.positional values) →
    options.execute = true → config.fastPath = true →
    Insert.fast table values options = .error e → calls = [] ∧ result = .error e
  /-- For bindings there is one statement, which is run or given back. -/
  bound : ∀ b s, args.resolve "insert" = .ok (.bindings b) →
    Insert.ofBindings table b options = .ok s →
    if options.execute then ∃ answer, calls = [.execute s answer] ∧ result = answer.map .rows
    else calls = [] ∧ result = .ok (.statement s)
  /-- For values there are at most two, and the second one is run only after the statement without
  column names has failed for what may be the number of values, and the table has columns. -/
  positional : ∀ values, args.resolve "insert" = .ok (.positional values) →
    calls.countP Exchange.isExecute ≤ 2 ∧
    (calls.countP Exchange.isExecute = 2 → ∃ s e ds s' answer,
      Insert.fast table values options = .ok s ∧ e.isArityFailure = true ∧ ds ≠ [] ∧
      calls = [.execute s (.error e), .describeTable table (.ok ds), .execute s' answer])
  /-- The statement without column names is tried first if the settings ask for it, and its outcome
  decides what follows. -/
  fast : ∀ values s, args.resolve "insert" = .ok (.positional values) →
    options.execute = true → config.fastPath = true → Insert.fast table values options = .ok s →
    ∃ answer rest, calls = .execute s answer :: rest ∧
      match answer with
      | .ok rows => rest = [] ∧ result = .ok (.rows rows)
      | .error e =>
        if e.isArityFailure then Retried table values options rest result
        else rest = [] ∧ result = .error e
  /-- Only the columns of the table are looked up, and nothing is run but statements. -/
  asked : ∀ x ∈ calls, x.isExecute = true ∨ ∃ answer, x = .describeTable table answer
  /-- Nothing is asked after a statement has run. -/
  ended : calls.Pairwise fun x _ => ∀ s rows, x ≠ .execute s (.ok rows)
  /-- The rows of a statement that has run are the result. -/
  rows : ∀ s rows, .execute s (.ok rows) ∈ calls → result = .ok (.rows rows)
  /-- Nothing is asked after a statement has failed, but for the number of its values. -/
  final : calls.Pairwise fun x _ => ∀ s e, x = .execute s (.error e) → e.isArityFailure = true

namespace ColumnInsert

variable {table : String} {values : List Value} {options : InsertOptions} {calls : List Exchange}
  {result : Except Error Output}

/-- After a statement without column names was built, that for the columns of the table is too. -/
theorem retried (h : ColumnInsert table values options calls result) {s : Statement}
    (hs : Insert.fast table values options = .ok s) (hx : options.execute = true) :
    Retried table values options calls result := by
  cases h with
  | undescribed e => exact .inl ⟨e, rfl, rfl⟩
  | missing => exact .inr (.inl ⟨rfl, rfl⟩)
  | unbuilt hne hf =>
    obtain ⟨s', hs'⟩ := Insert.exists_intoColumns_of_fast hs (mt List.map_eq_nil_iff.1 hne)
    rw [hs'] at hf
    cases hf
  | built hne hs' hb =>
    rw [hx] at hb
    cases hb
  | ran answer hne hs' _ => exact .inr (.inr ⟨_, _, answer, hne, hs', rfl, rfl⟩)

theorem asked (h : ColumnInsert table values options calls result) :
    ∀ x ∈ calls, x.isExecute = true ∨ ∃ answer, x = .describeTable table answer := by
  cases h <;> simp [Exchange.isExecute]

/-- Only the last thing that is asked can run a statement. -/
theorem pairwise (h : ColumnInsert table values options calls result) :
    calls.Pairwise fun x _ => x.isExecute = false := by
  cases h <;> simp [Exchange.isExecute]

/-- At most one statement is run, and before it the columns are looked up. -/
theorem countP_isExecute (h : ColumnInsert table values options calls result) :
    calls.countP Exchange.isExecute = 0 ∨ calls.countP Exchange.isExecute = 1 ∧
      ∃ ds s answer, ds ≠ [] ∧ calls = [.describeTable table (.ok ds), .execute s answer] := by
  cases h with
  | ran answer hne _ _ => exact .inr ⟨rfl, _, _, answer, hne, rfl⟩
  | _ => exact .inl rfl

theorem rows (h : ColumnInsert table values options calls result) {s : Statement}
    {rows : List Row} (hs : .execute s (.ok rows) ∈ calls) : result = .ok (.rows rows) := by
  cases h with
  | ran answer _ _ _ =>
    obtain ⟨-, rfl⟩ : s = _ ∧ .ok rows = answer := by simpa using hs
    rfl
  | _ => simp at hs

end ColumnInsert

namespace SingleInsert

variable {config : Config} {table : String} {args : Arguments} {options : InsertOptions}
  {calls : List Exchange} {result : Except Error Output}

theorem asked (h : SingleInsert config table args options calls result) :
    ∀ x ∈ calls, x.isExecute = true ∨ ∃ answer, x = .describeTable table answer := by
  cases h with
  | direct _ _ hc => exact hc.asked
  | retried _ _ _ _ hc => exact List.forall_mem_cons.2 ⟨.inl rfl, hc.asked⟩
  | _ => simp [Exchange.isExecute]

/-- What is followed by anything is no statement, or one that may have failed for the number of its
values. -/
theorem pairwise (h : SingleInsert config table args options calls result) :
    calls.Pairwise fun x _ => x.isExecute = false ∨
      ∃ s e, x = .execute s (.error e) ∧ e.isArityFailure = true := by
  cases h with
  | direct _ _ hc => exact hc.pairwise.imp .inl
  | retried _ _ _ ha hc =>
    exact List.pairwise_cons.2 ⟨fun _ _ => .inr ⟨_, _, rfl, ha⟩, hc.pairwise.imp .inl⟩
  | _ => simp

theorem rows (h : SingleInsert config table args options calls result) {s : Statement}
    {rows : List Row} (hs : .execute s (.ok rows) ∈ calls) : result = .ok (.rows rows) := by
  cases h with
  | boundRan answer _ _ _ =>
    obtain ⟨-, rfl⟩ : s = _ ∧ .ok rows = answer := by simpa using hs
    rfl
  | fastRan rows' _ _ _ =>
    obtain ⟨-, rfl⟩ : s = _ ∧ rows = rows' := by simpa using hs
    rfl
  | direct _ _ hc => exact hc.rows hs
  | retried _ _ _ _ hc => exact hc.rows (by simpa using hs)
  | _ => simp at hs

/-- At most two statements are run for values, and then the first one was without column names. -/
theorem countP_isExecute (h : SingleInsert config table args options calls result)
    {values : List Value} (hr : args.resolve "insert" = .ok (.positional values)) :
    calls.countP Exchange.isExecute ≤ 1 ∨ ∃ s e ds s' answer,
      Insert.fast table values options = .ok s ∧ e.isArityFailure = true ∧ ds ≠ [] ∧
      calls = [.execute s (.error e), .describeTable table (.ok ds), .execute s' answer] := by
  cases h with
  | retried hr' _ hs ha hc =>
    cases hr.symm.trans hr'
    rcases hc.countP_isExecute with hn | ⟨-, ds, s', answer, hne, rfl⟩
    · rw [List.countP_cons_of_pos rfl, hn]
      exact .inl (Nat.le_refl 1)
    · exact .inr ⟨_, _, ds, s', answer, hs, ha, hne, rfl⟩
  | direct _ _ hc =>
    rcases hc.countP_isExecute with hn | ⟨hn, -⟩
    · exact .inl (by rw [hn]; exact Nat.zero_le 1)
    · exact .inl (Nat.le_of_eq hn)
  | boundRan answer _ _ _ => exact .inl (Nat.le_refl 1)
  | fastRan rows _ _ _ => exact .inl (Nat.le_refl 1)
  | fastFailed _ _ _ _ => exact .inl (Nat.le_refl 1)
  | _ => exact .inl (Nat.zero_le 1)

theorem fast (h : SingleInsert config table args options calls result) {values : List Value}
    {s : Statement} (hr : args.resolve "insert" = .ok (.positional values))
    (hf : (options.execute && config.fastPath) = true)
    (hs : Insert.fast table values options = .ok s) :
    ∃ answer rest, calls = .execute s answer :: rest ∧
      match answer with
      | .ok rows => rest = [] ∧ result = .ok (.rows rows)
      | .error e =>
        if e.isArityFailure then Retried table values options rest result
        else rest = [] ∧ result = .error e := by
  cases h with
  | fastRan rows hr' _ hs' =>
    cases hr.symm.trans hr'
    cases hs.symm.trans hs'
    exact ⟨.ok rows, [], rfl, rfl, rfl⟩
  | @fastFailed _ _ e hr' _ hs' ha =>
    cases hr.symm.trans hr'
    cases hs.symm.trans hs'
    refine ⟨.error e, [], rfl, ?_⟩
    simp [ha]
  | @retried _ _ e calls _ hr' hf' hs' ha hc =>
    cases hr.symm.trans hr'
    cases hs.symm.trans hs'
    refine ⟨.error e, calls, rfl, ?_⟩
    simp only [ha, if_true]
    exact hc.retried hs (Bool.and_eq_true_iff.1 hf).1
  | _ => simp_all

theorem insertsOnce (h : SingleInsert config table args options calls result) :
    InsertsOnce config table args options calls result where
  unresolved := by
    intro e he
    cases h <;> simp_all
  unbound := by
    intro b e hr he
    cases h <;> simp_all
  unbuilt := by
    intro values e hr hx hf hs
    cases h <;> simp_all
  bound := by
    intro b s hr hs
    cases h <;> simp_all
  positional := by
    intro values hr
    rcases h.countP_isExecute hr with hn | ⟨s, e, ds, s', answer, hs, ha, hne, rfl⟩
    · exact ⟨by omega, by omega⟩
    · exact ⟨Nat.le_refl 2, fun _ => ⟨s, e, ds, s', answer, hs, ha, hne, rfl⟩⟩
  fast := by
    intro values s hr hx hf hs
    exact h.fast hr (by rw [hx, hf]; rfl) hs
  asked := h.asked
  ended := by
    refine h.pairwise.imp ?_
    rintro x _ (hx | ⟨s, e, rfl, -⟩) t rows ht
    · rw [ht] at hx
      cases hx
    · cases ht
  rows := fun _ _ => h.rows
  final := by
    refine h.pairwise.imp ?_
    rintro x _ (hx | ⟨s, e, rfl, ha⟩) t e' ht
    · rw [ht] at hx
      cases hx
    · cases ht
      exact ha

end SingleInsert

/-- **No row is inserted twice.**  Whatever the engine answers, a single insert runs a second
statement only after one without column names has failed for what may be the number of its values,
and nothing else is asked after a statement; the state left is that of the engine after the
dialogue. -/
theorem Database.inserts_once {σ : Type} (db : Database σ) (table : String) (args : Arguments)
    (options : InsertOptions) (st : σ) :
    let run := db.insert table args options st
    InsertsOnce db.config table args options (db.engine.dialogue st run.requests) run.result ∧
      run.state = db.engine.after st run.requests :=
  ⟨(db.singleInsert table args options st).insertsOnce,
    (db.faithful_insert table args options).state st⟩

end BoundSql
