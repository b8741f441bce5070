import BoundSql.Database
import BoundSql.Proofs.Layout

/-!
# The fast insert

A single insert of values without column names can be made in two ways.  The fast way tries a
statement without column names first, and only if that fails for what may be a wrong number of
values are the columns of the table looked up; the other way looks them up at once.

`Engine.HasTable` is what is asked of the engine: it knows the columns of the table, a failure
changes nothing, and a statement without column names is the same as one with all names if the
number of values is right, and fails for the number of values otherwise.  `Database.fast_agrees` is
the main statement: from such a state both ways have the same result and leave the same state.
-/

namespace BoundSql

/-! ### Effects -/

/-- What a run did, whatever was asked and reported on the way: its result and the state it
left. -/
def Run.effect {σ α : Type} (r : Run σ α) : Except Error α × σ := (r.result, r.state)

namespace Session

variable {σ α β : Type}

/-- Goes on with an effect, if it has a result. -/
def follow (p : Except Error α × σ) (f : α → σ → Except Error β × σ) : Except Error β × σ :=
  match p.1 with
  | .ok a => f a p.2
  | .error e => (.error e, p.2)

theorem effect_bind (x : Session σ α) (f : α → Session σ β) (st : σ) :
    ((x >>= f) st).effect = follow (x st).effect fun a st' => (f a st').effect := by
  cases h : (x st).result with
  | ok a =>
    rw [bind_of_ok h, Run.effect, Run.effect, follow]
    simp only [h]
    rfl
  | error e =>
    rw [bind_of_error h, Run.effect, Run.effect, follow]
    simp only [h]

end Session

/-! ### Statements of one row -/

namespace Arguments

theorem length_scalars {operation : String} {position : Nat} {l : List Argument}
    {values : List Value} (h : scalars operation position l = .ok values) :
    values.length = l.length := by
  induction l generalizing position values with
  | nil =>
    cases h
    rfl
  | cons a l ih =>
    cases a with
    | scalar v =>
      obtain ⟨vs, hs, hv⟩ := bind_eq_ok.1 h
      cases hv
      rw [List.length_cons, List.length_cons, ih hs]
    | sequence vs => cases h
    | mapping b => cases h

/-- A call without data is refused before it gets anywhere. -/
theorem values_ne_nil {operation : String} {args : Arguments} {values : List Value}
    (h : args.resolve operation = .ok (.positional values)) : values ≠ [] := by
  unfold resolve at h
  split at h
  · cases h
  · cases h
  · cases h
  · cases h
  · cases h
  · cases h
  · -- one list
    rename_i hne _ _
    cases h
    exact hne
  · -- arguments that are values each
    rename_i hnil _ _ _ _
    obtain ⟨vs, hs, hv⟩ := bind_eq_ok.1 h
    cases hv
    rintro rfl
    exact hnil (List.length_eq_zero_iff.1 (length_scalars hs).symm)

end Arguments

namespace Insert

/-- What stands in front of an insert of one row, if its options go together. -/
def lead (options : InsertOptions) : Except Error Fragment :=
  if options.verb = .replace ∧ options.onConflict.isSome then
    .error (.clause "insert" .replaceWithOption)
  else CommonTable.header options.tables

/-- Whether a row can be inserted at all depends on the options only. -/
theorem row_of_ne_zero {arity : Nat} (h : arity ≠ 0) (table : String)
    (columns : Option (List String)) (values : List Value) (options : InsertOptions) :
    row table columns arity values options =
      (fun w => w ++ ⟨target table options.verb options.onConflict columns ++
        Placeholder.list arity ++ ")", values⟩) <$> lead options := by
  unfold row head lead
  rw [if_neg h]
  split
  · rfl
  · rw [map_eq_pure_bind]
    rfl

theorem result_intoColumns (table : String) (columns : List String) (values : List Value)
    (options : InsertOptions) :
    (intoColumns table columns values options).result =
      let keep := min columns.length values.length
      row table (some (columns.take keep)) (columns.take keep).length (values.take keep)
        options := by
  obtain ⟨m, hm⟩ := Reconcile.result_crop table columns values
  unfold intoColumns
  rw [Build.result_bind, hm]
  rfl

/-- With a value for each column, nothing is cropped. -/
theorem result_intoColumns_full (table : String) {columns : List String} {values : List Value}
    (h : values.length = columns.length) (options : InsertOptions) :
    (intoColumns table columns values options).result =
      row table (some columns) columns.length values options := by
  rw [result_intoColumns, h, Nat.min_self]
  simp only
  rw [List.take_length, ← h, List.take_length]

/-- What cannot be built without column names cannot be built with them. -/
theorem result_intoColumns_of_error {table : String} {columns : List String} {values : List Value}
    {options : InsertOptions} (hc : columns ≠ []) (hv : values ≠ []) {e : Error}
    (h : fast table values options = .error e) :
    (intoColumns table columns values options).result = .error e := by
  have hcl : 0 < columns.length := List.length_pos_iff.2 hc
  have hvl : 0 < values.length := List.length_pos_iff.2 hv
  have hkeep : (columns.take (min columns.length values.length)).length ≠ 0 := by
    rw [List.length_take]
    omega
  rw [fast, row_of_ne_zero (Nat.ne_of_gt hvl)] at h
  rw [result_intoColumns]
  simp only
  rw [row_of_ne_zero hkeep]
  cases hl : lead options with
  | error e' =>
    rw [hl] at h
    cases h
    rfl
  | ok w => rw [hl] at h; cases h

/-- What can be built without column names can be built with them. -/
theorem exists_row_of_fast {table : String} {values : List Value} {options : InsertOptions}
    {s : Statement} (h : fast table values options = .ok s) {arity : Nat} (ha : arity ≠ 0)
    (columns : List String) : ∃ s', row table (some columns) arity values options = .ok s' := by
  have hv : values.length ≠ 0 := by
    intro hv
    unfold fast row head at h
    rw [if_pos hv] at h
    cases h
  rw [fast, row_of_ne_zero hv] at h
  obtain ⟨w, hw, -⟩ := map_eq_ok.1 h
  rw [row_of_ne_zero ha, hw]
  exact ⟨_, rfl⟩

end Insert

/-! ### Tables -/

/-- In this state, the engine has a table with these columns; a statement that fails changes
nothing; an insert of one row without column names is the same as one with all of them if it has a
value for each, and fails for their number otherwise. -/
structure Engine.HasTable {σ : Type} (engine : Engine σ) (table : String) (columns : List String)
    (st : σ) : Prop where
  nonempty : columns ≠ []
  described : ∃ ds, engine.describeTable table st = (.ok ds, st) ∧
    ds.map ColumnDescriptor.name = columns
  unchanged : ∀ s e, (engine.execute s st).1 = .error e → (engine.execute s st).2 = st
  all : ∀ values options s s', values.length = columns.length →
    Insert.fast table values options = .ok s →
    Insert.row table (some columns) columns.length values options = .ok s' →
    engine.execute s st = engine.execute s' st
  other : ∀ values options s, values.length ≠ columns.length →
    Insert.fast table values options = .ok s →
    ∃ e, (engine.execute s st).1 = .error e ∧ e.isArityFailure = true

namespace Database

variable {σ : Type} {engine : Engine σ} {table : String} {columns : List String} {st : σ}

/-- What comes of a statement that was built, if it is run. -/
def outcome (engine : Engine σ) (st : σ) : Except Error Statement → Except Error Output × σ
  | .ok s => Session.follow (engine.execute s st) fun rows st' => (.ok (.rows rows), st')
  | .error e => (.error e, st)

theorem effect_listColumns (h : engine.HasTable table columns st) (config : Config) :
    ((listColumns ⟨engine, config⟩ table) st).effect = (.ok columns, st) := by
  obtain ⟨ds, hd, hn⟩ := h.described
  have hne : ds.isEmpty = false := by
    rw [List.isEmpty_eq_false_iff]
    rintro rfl
    exact h.nonempty hn.symm
  have ha : (describeTable ⟨engine, config⟩ table st).effect = (.ok ds, st) := hd
  unfold listColumns
  rw [Session.effect_bind, ha]
  simp only [Session.follow, hne, hn]
  rfl

/-- An insert for the columns of the table runs the statement for as many of them as there are
values. -/
theorem effect_insertIntoColumns (h : engine.HasTable table columns st) (config : Config)
    {options : InsertOptions} (he : options.execute = true) (values : List Value) :
    ((insertIntoColumns ⟨engine, config⟩ table values options) st).effect =
      outcome engine st (Insert.intoColumns table columns values options).result := by
  unfold insertIntoColumns
  rw [Session.effect_bind, effect_listColumns h, Session.follow]
  simp only
  rw [Session.effect_bind]
  change Session.follow ((Insert.intoColumns table columns values options).result, st) _ = _
  cases (Insert.intoColumns table columns values options).result with
  | error e => rfl
  | ok s =>
    simp only [Session.follow, finish, he, if_true]
    rw [Session.effect_bind]
    rfl

/-- A fast insert runs the statement without column names, and makes the insert again if that fails
for what may be a wrong number of values. -/
theorem effect_insertFast {config : Config} {values : List Value} {options : InsertOptions} :
    ((insertFast ⟨engine, config⟩ table values options) st).effect =
      match Insert.fast table values options with
      | .error e => (.error e, st)
      | .ok s => match engine.execute s st with
        | (.ok rows, st') => (.ok (.rows rows), st')
        | (.error e, st') =>
          if e.isArityFailure then
            ((insertIntoColumns ⟨engine, config⟩ table values options) st').effect
          else (.error e, st') := by
  unfold insertFast
  rw [Session.effect_bind]
  change Session.follow (Insert.fast table values options, st) _ = _
  cases Insert.fast table values options with
  | error e => rfl
  | ok s =>
    simp only [Session.follow]
    rw [Session.effect_bind]
    have ha : ((execute ⟨engine, config⟩ s).attempt st).effect =
        (.ok (engine.execute s st).1, (engine.execute s st).2) := rfl
    rw [ha]
    obtain ⟨r, st'⟩ := engine.execute s st
    cases r with
    | ok rows => rfl
    | error e =>
      simp only [Session.follow]
      split
      · rw [Session.effect_bind]
        rfl
      · rfl

/-- **The fast insert agrees with the insert for the columns of the table**, whatever the engine
says. -/
theorem effect_fast_eq (h : engine.HasTable table columns st) (fast slow : Config)
    {values : List Value} (hv : values ≠ []) {options : InsertOptions}
    (he : options.execute = true) :
    ((insertFast ⟨engine, fast⟩ table values options) st).effect =
      ((insertIntoColumns ⟨engine, slow⟩ table values options) st).effect := by
  have hcl : columns.length ≠ 0 := fun hl => h.nonempty (List.length_eq_zero_iff.1 hl)
  rw [effect_insertFast, effect_insertIntoColumns h slow he]
  cases hf : Insert.fast table values options with
  | error e => rw [Insert.result_intoColumns_of_error h.nonempty hv hf, outcome]
  | ok s =>
    simp only
    rcases hx : engine.execute s st with ⟨r, st'⟩
    by_cases hlen : values.length = columns.length
    · -- both ways run what is the same to the engine
      obtain ⟨s', hs'⟩ := Insert.exists_row_of_fast hf hcl columns
      have hsame : engine.execute s' st = (r, st') := by
        rw [← h.all values options s s' hlen hf hs', hx]
      have hslow : outcome engine st (Insert.intoColumns table columns values options).result =
          Session.follow (r, st') fun rows st' => (.ok (.rows rows), st') := by
        rw [Insert.result_intoColumns_full table hlen, hs', outcome, hsame]
      cases r with
      | ok rows => exact hslow.symm
      | error e =>
        -- the error may look like one of the number of values, and then the row is tried again
        have hst : st' = st := by
          have := h.unchanged s e (congrArg Prod.fst hx)
          rwa [hx] at this
        subst hst
        simp only
        split
        · rw [effect_insertIntoColumns h fast he]
        · exact hslow.symm
    · -- the fast way fails and leaves the state, so the second attempt is the other way
      obtain ⟨e, hr, ha⟩ := h.other values options s hlen hf
      have hst := h.unchanged s e hr
      rw [hx] at hr hst
      subst hst
      simp only at hr
      subst hr
      simp only [ha, if_true]
      rw [effect_insertIntoColumns h fast he]

/-- **The fast insert changes nothing but what is asked of the engine.**  From a state in which the
engine has the table, a single insert that is to be run has the same result and leaves the same
state whether the fast way is tried first or not. -/
theorem fast_agrees (h : engine.HasTable table columns st) (config : Config) (args : Arguments)
    (options : InsertOptions) (he : options.execute = true) :
    let fast := insert ⟨engine, { config with fastPath := true }⟩ table args options st
    let slow := insert ⟨engine, { config with fastPath := false }⟩ table args options st
    fast.result = slow.result ∧ fast.state = slow.state := by
  refine Prod.ext_iff.1 (?_ : Run.effect _ = Run.effect _)
  unfold insert
  rw [Session.effect_bind, Session.effect_bind]
  cases hr : args.resolve "insert" with
  | error e => rfl
  | ok r =>
    cases r with
    | bindings b => rfl
    | positional values =>
      have hv : values ≠ [] := Arguments.values_ne_nil hr
      have heq := effect_fast_eq h { config with fastPath := true }
        { config with fastPath := false } hv he
      simp only [Session.follow, Run.effect, Session.ofExcept, he, Bool.and_true, Bool.and_false]
      exact heq

end Database

/-! ### A table with two columns -/

namespace TwoColumns

/-- The number of placeholders in the last list of a text, and whether names in parentheses stand
in front of it. -/
def lastList (script : List Char) : Nat × Bool :=
  let list := script.reverse.takeWhile (· ≠ '(')
  -- between the two lists there is " VALUES ("
  (list.count '?', (script.reverse.drop (list.length + 9)).head? == some ')')

theorem list_succ_succ (n : Nat) :
    Placeholder.list (n + 2) = "?" ++ ", " ++ Placeholder.list (n + 1) := by
  unfold Placeholder.list
  rw [List.replicate_succ, List.replicate_succ, String.intercalate_cons_cons]

theorem count_list (n : Nat) : (Placeholder.list n).toList.count '?' = n := by
  induction n with
  | zero => rfl
  | succ n ih =>
    cases n with
    | zero => decide
    | succ n =>
      rw [list_succ_succ, String.toList_append, List.count_append, ih]
      have hs : ("?" ++ ", ").toList.count '?' = 1 := by decide
      omega

theorem not_mem_list (n : Nat) : '(' ∉ (Placeholder.list n).toList := by
  induction n with
  | zero => decide
  | succ n ih =>
    cases n with
    | zero => decide
    | succ n =>
      rw [list_succ_succ, String.toList_append, List.mem_append]
      rintro (h | h)
      · exact absurd h (by decide)
      · exact ih h

theorem lastList_values (s : List Char) (c : Char) (n : Nat) :
    lastList (s ++ c :: (" VALUES (".toList ++ ((Placeholder.list n).toList ++ [')']))) =
      (n, c == ')') := by
  let marks := ')' :: (Placeholder.list n).toList.reverse
  have hrev : (s ++ c :: (" VALUES (".toList ++ ((Placeholder.list n).toList ++ [')']))).reverse =
      marks ++ ("( SEULAV ".toList ++ c :: s.reverse) := by
    simp [marks]
  have hmarks : ∀ d ∈ marks, (decide (d ≠ '(')) = true := by
    intro d hd
    rw [decide_eq_true_eq]
    rintro rfl
    rcases List.mem_cons.1 hd with h | h
    · exact absurd h (by decide)
    · exact not_mem_list n (List.mem_reverse.1 h)
  have htake : (marks ++ ("( SEULAV ".toList ++ c :: s.reverse)).takeWhile (· ≠ '(') = marks := by
    rw [List.takeWhile_append_of_pos hmarks]
    exact List.append_nil marks
  have hcount : marks.count '?' = n := by
    rw [List.count_cons, List.count_reverse, count_list]
    rfl
  unfold lastList
  simp only [hrev, htake, hcount, List.drop_length_add_append]
  rfl

theorem suffix_target (verb : InsertVerb) (onConflict : Option OnConflict)
    (columns : Option (List String)) :
    ((if columns.isSome then ')' else 't') :: " VALUES (".toList) <:+
      (Insert.target "t" verb onConflict columns).toList := by
  unfold Insert.target
  simp only [String.toList_append]
  cases columns with
  | none =>
    rw [String.toList_empty, List.append_nil, List.append_assoc]
    exact List.suffix_append _ _
  | some cs =>
    rw [String.toList_append, ← List.append_assoc, List.append_assoc]
    exact List.suffix_append _ _

/-- The list of values of an insert of one row is read back. -/
theorem lastList_row {columns : Option (List String)} {n : Nat} (h : n ≠ 0) {values : List Value}
    {options : InsertOptions} {s : Statement}
    (hs : Insert.row "t" columns n values options = .ok s) :
    lastList s.script.toList = (n, columns.isSome) ∧
      s.values.drop (s.values.length - values.length) = values := by
  rw [Insert.row_of_ne_zero h] at hs
  obtain ⟨w, -, rfl⟩ := map_eq_ok.1 hs
  refine ⟨?_, ?_⟩
  · obtain ⟨p, hp⟩ := suffix_target options.verb options.onConflict columns
    have hscript : (w.script ++ (Insert.target "t" options.verb options.onConflict columns ++
        Placeholder.list n ++ ")")).toList =
          (w.script.toList ++ p) ++ (if columns.isSome then ')' else 't') ::
            (" VALUES (".toList ++ ((Placeholder.list n).toList ++ [')'])) := by
      simp only [String.toList_append, ← hp, List.append_assoc, List.cons_append]
      rfl
    rw [Fragment.script_append, hscript, lastList_values]
    cases columns <;> rfl
  · rw [Fragment.values_append, List.length_append, Nat.add_sub_cancel, List.drop_left]

/-- The failure of a statement with a wrong number of values. -/
def countFailure (n : Nat) : Error :=
  .engine (.sqlite 1 ("table t has 2 columns but " ++ toString n ++ " values were supplied"))

/-- An engine with one table `t` of the columns `a` and `b`, of which the state is the rows.  It
knows inserts only, and adds the last values of a statement as a row. -/
def engine : Engine (List Row) where
  execute s rows :=
    let (n, named) := lastList s.script.toList
    if named = true ∨ n = 2 then
      (.ok [], rows ++ [Reconcile.fit 2 (s.values.drop (s.values.length - n))])
    else (.error (countFailure n), rows)
  executeMany _ rows := (.ok [], rows)
  executeScript _ rows := (.ok [], rows)
  describeTable table rows := (.ok (if table = "t" then [⟨1, "a"⟩, ⟨2, "b"⟩] else []), rows)
  listTables rows := (.ok ["t"], rows)

theorem execute_row {columns : Option (List String)} {values : List Value}
    (h : values.length ≠ 0) {options : InsertOptions} {s : Statement}
    (hs : Insert.row "t" columns values.length values options = .ok s) (rows : List Row) :
    engine.execute s rows =
      if columns.isSome = true ∨ values.length = 2 then (.ok [], rows ++ [Reconcile.fit 2 values])
      else (.error (countFailure values.length), rows) := by
  obtain ⟨hl, hv⟩ := lastList_row h hs
  simp only [engine, hl, hv]

theorem hasTable (rows : List Row) : engine.HasTable "t" ["a", "b"] rows where
  nonempty := by decide
  described := ⟨_, rfl, rfl⟩
  unchanged := by
    intro s e h
    simp only [engine] at h ⊢
    split at h
    · cases h
    · rename_i hn
      rw [if_neg hn]
  all := by
    intro values options s s' hlen hs hs'
    have h2 : values.length = 2 := hlen
    have hn : values.length ≠ 0 := by omega
    rw [← hlen] at hs'
    rw [execute_row hn hs, execute_row hn hs', if_pos (Or.inr h2), if_pos (Or.inr h2)]
  other := by
    intro values options s hlen hs
    have hn : values.length ≠ 0 := by
      intro h0
      rw [Insert.fast, h0] at hs
      cases hs
    refine ⟨countFailure values.length, ?_, rfl⟩
    rw [execute_row hn hs, if_neg]
    rintro (h | h)
    · exact absurd h (by decide)
    · exact hlen h

end TwoColumns

/-- Three values for two columns: the fast way is refused, and both ways add the first two. -/
theorem fast_agrees_cropped :
    TwoColumns.engine.HasTable "t" ["a", "b"] [] ∧ ({} : InsertOptions).execute = true ∧
      let args : Arguments := ⟨[.sequence [.integer 1, .null, .integer 3]], []⟩
      let fast := Database.insert ⟨TwoColumns.engine, { fastPath := true }⟩ "t" args {} []
      let slow := Database.insert ⟨TwoColumns.engine, { fastPath := false }⟩ "t" args {} []
      fast.result = slow.result ∧ fast.state = slow.state ∧
        fast.state = [[.integer 1, .null]] ∧ fast.requests.length = 3 := by
  have h := TwoColumns.hasTable []
  let args : Arguments := ⟨[.sequence [.integer 1, .null, .integer 3]], []⟩
  obtain ⟨hr, hs⟩ := Database.fast_agrees h {} args {} rfl
  exact ⟨h, rfl, hr, hs, rfl, rfl⟩

end BoundSql
