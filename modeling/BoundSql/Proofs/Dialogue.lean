import BoundSql.Database

/-!
# Dialogues

The requests of a run say what the engine was asked.  An engine is a function of its state, so they
also say what it answered: `Engine.dialogue` puts the requests to it once more.  A session is
*faithful* (`Session.Faithful`) if it acts on the engine by its requests only and learns of it from
the answers only.  Then the answers of the dialogue are those that the session was given, also when
one session goes on after another (`Session.Faithful.exchanges_bind`), and sessions that are
answered alike have the same result.
-/

namespace BoundSql

/-- A request with the answer to it. -/
inductive Exchange where
  | execute (s : Statement) (answer : Except Error (List Row))
  | executeMany (b : Batch) (answer : Except Error (List Row))
  | executeScript (script : String) (answer : Except Error (List Row))
  | describeTable (table : String) (answer : Except Error (List ColumnDescriptor))
  | listTables (answer : Except Error (List String))

namespace Exchange

/-- What was asked. -/
def request : Exchange → Request
  | execute s _ => .execute s
  | executeMany b _ => .executeMany b
  | executeScript script _ => .executeScript script
  | describeTable table _ => .describeTable table
  | listTables _ => .listTables

end Exchange

/-! ### Putting requests to an engine -/

namespace Engine

variable {σ : Type} (engine : Engine σ)

/-- The answer to a request, and the state afterwards. -/
def respond : Request → σ → Exchange × σ
  | .execute s, st => (.execute s (engine.execute s st).1, (engine.execute s st).2)
  | .executeMany b, st => (.executeMany b (engine.executeMany b st).1, (engine.executeMany b st).2)
  | .executeScript script, st =>
    (.executeScript script (engine.executeScript script st).1, (engine.executeScript script st).2)
  | .describeTable table, st =>
    (.describeTable table (engine.describeTable table st).1, (engine.describeTable table st).2)
  | .listTables, st => (.listTables (engine.listTables st).1, (engine.listTables st).2)

/-- The answers to requests in a row. -/
def dialogue : σ → List Request → List Exchange
  | _, [] => []
  | st, r :: rs => (engine.respond r st).1 :: dialogue (engine.respond r st).2 rs

/-- The state after requests in a row. -/
def after : σ → List Request → σ
  | st, [] => st
  | st, r :: rs => after (engine.respond r st).2 rs

theorem dialogue_append (st : σ) (l m : List Request) :
    engine.dialogue st (l ++ m) =
      engine.dialogue st l ++ engine.dialogue (engine.after st l) m := by
  induction l generalizing st with
  | nil => rfl
  | cons r l ih => simp only [List.cons_append, dialogue, after, ih]

theorem after_append (st : σ) (l m : List Request) :
    engine.after st (l ++ m) = engine.after (engine.after st l) m := by
  induction l generalizing st with
  | nil => rfl
  | cons r l ih => simp only [List.cons_append, after, ih]

theorem request_respond (r : Request) (st : σ) : (engine.respond r st).1.request = r := by
  cases r <;> rfl

/-- A dialogue is about the requests that were made. -/
theorem map_request_dialogue (st : σ) (l : List Request) :
    (engine.dialogue st l).map Exchange.request = l := by
  induction l generalizing st with
  | nil => rfl
  | cons r l ih => rw [dialogue, List.map_cons, request_respond, ih]

end Engine

/-! ### Faithful sessions -/

namespace Session

variable {σ α β : Type} {engine : Engine σ}

/-- What a session asks of an engine, and what it is answered. -/
def exchanges (engine : Engine σ) (x : Session σ α) (st : σ) : List Exchange :=
  engine.dialogue st (x st).requests

/-- A session that acts on an engine by its requests only and learns of it from the answers only,
whatever state the engine is in. -/
structure Faithful (engine : Engine σ) (x : Session σ α) : Prop where
  /-- The engine is left in the state it has after the requests. -/
  state : ∀ st, (x st).state = engine.after st (x st).requests
  /-- Runs that are answered alike as far as they ask have asked the same and have the same
  result. -/
  learned : ∀ st st' rest rest',
    x.exchanges engine st ++ rest = x.exchanges engine st' ++ rest' →
      x.exchanges engine st = x.exchanges engine st' ∧ (x st).result = (x st').result

theorem faithful_ofBuild (b : Build α) : (ofBuild b : Session σ α).Faithful engine :=
  ⟨fun _ => rfl, fun _ _ _ _ _ => ⟨rfl, rfl⟩⟩

theorem faithful_ofExcept (r : Except Error α) : (ofExcept r : Session σ α).Faithful engine :=
  faithful_ofBuild (Build.ofExcept r)

theorem faithful_pure (a : α) : (pure a : Session σ α).Faithful engine :=
  faithful_ofExcept (.ok a)

theorem faithful_report (e : Event) : (report e : Session σ Unit).Faithful engine :=
  faithful_ofBuild (Build.report e)

/-- A single request is faithful if its answer is all that is learned. -/
theorem faithful_ask {r : Request} {action : Engine.Action σ α}
    {answered : Except Error α → Exchange} (ha : Function.Injective answered)
    (h : ∀ st, engine.respond r st = (answered (action st).1, (action st).2)) :
    (ask r action).Faithful engine where
  state := fun st => by
    change (action st).2 = (engine.respond r st).2
    rw [h]
  learned := by
    have hx (st : σ) : (ask r action).exchanges engine st = [answered (action st).1] := by
      change [(engine.respond r st).1] = _
      rw [h]
    intro st st' rest rest' heq
    rw [hx, hx] at heq ⊢
    have hans : (action st).1 = (action st').1 := ha (List.cons.inj heq).1
    exact ⟨by rw [hans], hans⟩

theorem Faithful.attempt {x : Session σ α} (hx : x.Faithful engine) :
    x.attempt.Faithful engine where
  state := hx.state
  learned := fun st st' rest rest' heq =>
    have ⟨hasked, hresult⟩ := hx.learned st st' rest rest' heq
    ⟨hasked, congrArg Except.ok hresult⟩

/-- The second session is answered from the state that the first one leaves. -/
theorem Faithful.exchanges_bind {x : Session σ α} (hx : x.Faithful engine) {f : α → Session σ β}
    {st : σ} {a : α} (h : (x st).result = .ok a) :
    (x >>= f).exchanges engine st =
      x.exchanges engine st ++ (f a).exchanges engine (x st).state := by
  rw [exchanges, bind_of_ok h, Engine.dialogue_append, ← hx.state st]
  rfl

theorem exchanges_bind_of_error {x : Session σ α} {f : α → Session σ β} {st : σ} {e : Error}
    (h : (x st).result = .error e) :
    (x >>= f).exchanges engine st = x.exchanges engine st := by
  rw [exchanges, bind_of_error h]
  rfl

/-- What the first session asks comes first. -/
theorem Faithful.exists_exchanges_bind {x : Session σ α} (hx : x.Faithful engine)
    (f : α → Session σ β) (st : σ) :
    ∃ rest, (x >>= f).exchanges engine st = x.exchanges engine st ++ rest := by
  cases h : (x st).result with
  | ok a => exact ⟨_, hx.exchanges_bind h⟩
  | error e => exact ⟨[], by rw [exchanges_bind_of_error h, List.append_nil]⟩

theorem Faithful.bind {x : Session σ α} (hx : x.Faithful engine) {f : α → Session σ β}
    (hf : ∀ a, (f a).Faithful engine) : (x >>= f).Faithful engine where
  state := by
    intro st
    cases h : (x st).result with
    | ok a => rw [bind_of_ok h, (hf a).state, hx.state st, Engine.after_append]
    | error e => rw [bind_of_error h, hx.state st]
  learned := by
    intro st st' rest rest' heq
    obtain ⟨more, hmore⟩ := hx.exists_exchanges_bind f st
    obtain ⟨more', hmore'⟩ := hx.exists_exchanges_bind f st'
    -- the first session is answered alike in both runs, so the second one starts from one result
    rw [hmore, hmore', List.append_assoc, List.append_assoc] at heq
    obtain ⟨hasked, hresult⟩ := hx.learned st st' _ _ heq
    cases h : (x st).result with
    | error e =>
      have h' := hresult.symm.trans h
      rw [exchanges_bind_of_error h, exchanges_bind_of_error h', bind_of_error h, bind_of_error h']
      exact ⟨hasked, rfl⟩
    | ok a =>
      have h' := hresult.symm.trans h
      rw [hx.exchanges_bind h, hasked] at hmore
      rw [hx.exchanges_bind h'] at hmore'
      rw [hasked, ← List.append_cancel_left hmore, ← List.append_cancel_left hmore'] at heq
      obtain ⟨hasked', hresult'⟩ := (hf a).learned _ _ _ _ (List.append_cancel_left heq)
      rw [hx.exchanges_bind h, hx.exchanges_bind h', bind_of_ok h, bind_of_ok h', hasked, hasked']
      exact ⟨rfl, hresult'⟩

/-- Steps that are each faithful are faithful one after the other. -/
theorem faithful_mapM {f : α → Session σ β} (hf : ∀ a, (f a).Faithful engine) (l : List α) :
    (l.mapM f).Faithful engine := by
  induction l with
  | nil => exact faithful_pure []
  | cons a l ih =>
    rw [List.mapM_cons]
    exact (hf a).bind fun _ => ih.bind fun _ => faithful_pure _

theorem result_bind_pure (x : Session σ α) (f : α → β) (st : σ) :
    ((x >>= fun a => pure (f a)) st).result = (x st).result.map f := by
  cases h : (x st).result with
  | ok a =>
    rw [bind_of_ok h]
    rfl
  | error e =>
    rw [bind_of_error h]
    rfl

/-- What is made of a result asks nothing. -/
theorem exchanges_bind_pure (x : Session σ α) (f : α → β) (st : σ) :
    (x >>= fun a => pure (f a)).exchanges engine st = x.exchanges engine st := by
  cases h : (x st).result with
  | ok a => rw [exchanges, bind_of_ok h, pure_apply, List.append_nil, exchanges]
  | error e => exact exchanges_bind_of_error h

/-- After something was built the session goes on as if nothing had been asked. -/
theorem exchanges_ofBuild_bind (engine : Engine σ) {b : Build α} {a : α}
    (h : b.result = .ok a) (f : α → Session σ β) (st : σ) :
    (ofBuild b >>= f).exchanges engine st = (f a).exchanges engine st ∧
      ((ofBuild b >>= f) st).result = (f a st).result := by
  have hb : (ofBuild b st).result = .ok a := h
  rw [(faithful_ofBuild b).exchanges_bind hb, bind_of_ok hb]
  exact ⟨rfl, rfl⟩

theorem exchanges_ofBuild_bind_of_error (engine : Engine σ) {b : Build α} {e : Error}
    (h : b.result = .error e) (f : α → Session σ β) (st : σ) :
    (ofBuild b >>= f).exchanges engine st = [] ∧ ((ofBuild b >>= f) st).result = .error e := by
  have hb : (ofBuild b st).result = .error e := h
  rw [exchanges_bind_of_error hb, bind_of_error hb]
  exact ⟨rfl, rfl⟩

end Session

/-! ### Steps that ask nothing -/

namespace Session

variable {σ α β : Type}

/-- A session that asks nothing of the engine. -/
def Silent (x : Session σ α) : Prop := ∀ st, (x st).requests = []

theorem silent_ofBuild (b : Build α) : (ofBuild b : Session σ α).Silent := fun _ => rfl

theorem silent_ofExcept (r : Except Error α) : (ofExcept r : Session σ α).Silent := fun _ => rfl

theorem silent_pure (a : α) : (pure a : Session σ α).Silent := fun _ => rfl

/-- A silent step asks nothing more. -/
theorem requests_bind_of_silent (x : Session σ α) {f : α → Session σ β} (hf : ∀ a, (f a).Silent)
    (st : σ) : ((x >>= f) st).requests = (x st).requests := by
  cases h : (x st).result with
  | ok a => rw [bind_of_ok h, hf a, List.append_nil]
  | error e => rw [bind_of_error h]

theorem Silent.bind {x : Session σ α} (hx : x.Silent) {f : α → Session σ β}
    (hf : ∀ a, (f a).Silent) : (x >>= f).Silent :=
  fun st => (requests_bind_of_silent x hf st).trans (hx st)

/-- A result comes from the last step. -/
theorem result_bind_eq_ok {x : Session σ α} {f : α → Session σ β} {st : σ} {b : β}
    (h : ((x >>= f) st).result = .ok b) :
    ∃ a, (x st).result = .ok a ∧ (f a (x st).state).result = .ok b := by
  cases hx : (x st).result with
  | ok a =>
    rw [bind_of_ok hx] at h
    exact ⟨a, rfl, h⟩
  | error e =>
    rw [bind_of_error hx] at h
    cases h

end Session

/-! ### Databases -/

namespace Database

variable {σ : Type} (db : Database σ)

theorem faithful_execute (s : Statement) : (db.execute s).Faithful db.engine :=
  Session.faithful_ask (fun _ _ h => (Exchange.execute.inj h).2) fun _ => rfl

theorem faithful_executeMany (b : Batch) : (db.executeMany b).Faithful db.engine :=
  Session.faithful_ask (fun _ _ h => (Exchange.executeMany.inj h).2) fun _ => rfl

theorem faithful_describeTable (table : String) : (db.describeTable table).Faithful db.engine :=
  Session.faithful_ask (fun _ _ h => (Exchange.describeTable.inj h).2) fun _ => rfl

theorem faithful_listColumns (table : String) : (db.listColumns table).Faithful db.engine := by
  refine (db.faithful_describeTable table).bind fun ds => ?_
  split
  · exact Session.faithful_ofExcept _
  · exact Session.faithful_pure _

/-- The columns that a description of a table names, of which there must be one. -/
def columnNames (table : String) (description : Except Error (List ColumnDescriptor)) :
    Except Error (List String) := do
  let ds ← description
  if ds.isEmpty then .error (.noSuchTable table) else .ok (ds.map ColumnDescriptor.name)

/-- Looking up the columns of a table asks for its description only. -/
theorem exchanges_listColumns (table : String) (st : σ) :
    (db.listColumns table).exchanges db.engine st =
        [.describeTable table (db.engine.describeTable table st).1] ∧
      (db.listColumns table st).result =
        columnNames table (db.engine.describeTable table st).1 := by
  have hd := db.faithful_describeTable table
  have hr : (db.describeTable table st).result = (db.engine.describeTable table st).1 := rfl
  have hx : (db.describeTable table).exchanges db.engine st =
      [.describeTable table (db.engine.describeTable table st).1] := rfl
  change Session.exchanges _ (db.describeTable table >>= _) st = _ ∧
    Run.result ((db.describeTable table >>= _) st) = _
  cases h : (db.engine.describeTable table st).1 with
  | error e =>
    rw [h] at hr hx
    rw [Session.exchanges_bind_of_error hr, hx, Session.bind_of_error hr]
    exact ⟨rfl, rfl⟩
  | ok ds =>
    rw [h] at hr hx
    rw [hd.exchanges_bind hr, hx, Session.bind_of_ok hr]
    cases ds <;> exact ⟨rfl, rfl⟩

theorem faithful_finish (s : Statement) (execute : Bool) :
    (db.finish s execute).Faithful db.engine := by
  unfold finish
  split
  · exact (db.faithful_execute s).bind fun rows => Session.faithful_pure _
  · exact Session.faithful_pure _

theorem faithful_createTable (name : String) (t : TableDef) (options : CreateOptions) :
    (db.createTable name t options).Faithful db.engine :=
  (Session.faithful_ofExcept _).bind fun s => db.faithful_finish s _

/-- Finishing a statement that is to be run asks for that only. -/
theorem exchanges_finish (s : Statement) (execute : Bool) (st : σ) :
    if execute then ∃ answer, (db.finish s execute).exchanges db.engine st = [.execute s answer] ∧
        (db.finish s execute st).result = answer.map Output.rows
      else (db.finish s execute).exchanges db.engine st = [] ∧
        (db.finish s execute st).result = .ok (.statement s) := by
  cases execute with
  | false => exact ⟨rfl, rfl⟩
  | true =>
    exact ⟨(db.engine.execute s st).1, Session.exchanges_bind_pure (db.execute s) _ st,
      Session.result_bind_pure (db.execute s) _ st⟩

theorem faithful_insertIntoColumns (table : String) (values : List Value)
    (options : InsertOptions) :
    (db.insertIntoColumns table values options).Faithful db.engine :=
  (db.faithful_listColumns table).bind fun _ =>
    (Session.faithful_ofBuild _).bind fun s => db.faithful_finish s _

theorem faithful_insertFast (table : String) (values : List Value) (options : InsertOptions) :
    (db.insertFast table values options).Faithful db.engine := by
  refine (Session.faithful_ofExcept _).bind fun s => ?_
  refine (db.faithful_execute s).attempt.bind fun r => ?_
  cases r with
  | ok rows => exact Session.faithful_pure _
  | error e =>
    simp only
    split
    · exact (Session.faithful_report _).bind fun _ => db.faithful_insertIntoColumns _ _ _
    · exact Session.faithful_ofExcept _

theorem faithful_insert (table : String) (args : Arguments) (options : InsertOptions) :
    (db.insert table args options).Faithful db.engine := by
  refine (Session.faithful_ofExcept _).bind fun r => ?_
  cases r with
  | bindings b => exact (Session.faithful_ofExcept _).bind fun s => db.faithful_finish s _
  | positional values =>
    simp only
    split
    · exact db.faithful_insertFast _ _ _
    · exact db.faithful_insertIntoColumns _ _ _

theorem faithful_insertMany (table : String) (input : BulkInput) (options : InsertOptions) :
    (db.insertMany table input options).Faithful db.engine := by
  have hb : (db.bulkBatch table input options).Faithful db.engine := by
    cases input with
    | rows rows =>
      exact (db.faithful_listColumns table).bind fun _ => Session.faithful_ofBuild _
    | columns columns => exact Session.faithful_ofBuild _
  refine hb.bind fun b => ?_
  split
  · exact (db.faithful_executeMany b).bind fun _ => Session.faithful_pure _
  · exact Session.faithful_pure _

end Database

end BoundSql
