import BoundSql.Proofs.FastInsert
import BoundSql.Proofs.Faults

/-!
# Three ways to insert one row

One row can be given by values alone, by values for columns, or by bindings.  Values and columns are
cut to the length of the shorter list first, and from there on the three ways differ in nothing but
the list of column names behind the name of the table.  `Insert.oneRow_agrees` is the main
statement: they succeed together, fail for the same reason, and bind the same values.
-/

namespace BoundSql

namespace Bindings

theorem columns_zip {columns : List String} {values : List Value}
    (h : columns.length = values.length) : Bindings.columns (columns.zip values) = columns :=
  List.map_fst_zip (Nat.le_of_eq h)

theorem values_zip {columns : List String} {values : List Value}
    (h : columns.length = values.length) : Bindings.values (columns.zip values) = values :=
  List.map_snd_zip (Nat.le_of_eq h.symm)

end Bindings

namespace Insert

/-! ### The text of an insert -/

/-- The text up to the name of the table and with it, common tables in front. -/
def opening (table : String) (options : InsertOptions) : String :=
  let option := match options.onConflict with
    | some o => " OR " ++ o.sql
    | none => ""
  (CommonTable.written options.tables).script ++
    (options.verb.sql ++ option ++ " INTO " ++ table)

/-- The list of column names. -/
def nameList (columns : List String) : String := " (" ++ ", ".intercalate columns ++ ")"

/-- The list of values. -/
def valueList (arity : Nat) : String := " VALUES (" ++ Placeholder.list arity ++ ")"

/-- Options that do not go together are refused before common tables are looked at. -/
theorem lead_eq_ok {options : InsertOptions} {w : Fragment} (h : lead options = .ok w) :
    w = CommonTable.written options.tables := by
  unfold lead at h
  split at h
  · cases h
  · rw [CommonTable.header_eq_unlessFaulty] at h
    exact (unlessFaulty_eq_ok.1 h).2.symm

theorem target_none (table : String) (options : InsertOptions) (arity : Nat) :
    (CommonTable.written options.tables).script ++
      (target table options.verb options.onConflict none ++ Placeholder.list arity ++ ")") =
      opening table options ++ valueList arity := by
  cases h : options.onConflict <;>
    simp only [target, opening, valueList, h, String.append_assoc, String.empty_append]

theorem target_some (table : String) (options : InsertOptions) (columns : List String)
    (arity : Nat) :
    (CommonTable.written options.tables).script ++
      (target table options.verb options.onConflict (some columns) ++ Placeholder.list arity ++
        ")") = opening table options ++ nameList columns ++ valueList arity := by
  cases h : options.onConflict <;>
    simp only [target, opening, nameList, valueList, h, String.append_assoc, String.empty_append]

/-! ### Rows without values -/

theorem row_zero (table : String) (columns : Option (List String)) (values : List Value)
    (options : InsertOptions) :
    row table columns 0 values options = .error (.noData "insert") := by
  unfold row head
  rw [if_pos rfl]
  rfl

/-! ### The three ways -/

/-- What the ways to insert one row have in common: values for columns, the bindings of both, and
the values alone. -/
structure OneRow (table : String) (columns : List String) (options : InsertOptions)
    (named bound bare : Except Error Statement) : Prop where
  /-- Values for columns are bindings. -/
  same : named = bound
  /-- Without columns there is nothing to insert. -/
  empty : columns = [] → named = .error (.noData "insert") ∧ bare = .error (.noData "insert")
  /-- With or without column names, the row can be inserted. -/
  built : (∃ s, named = .ok s) ↔ ∃ s, bare = .ok s
  /-- With or without column names, it cannot be inserted for the same reason. -/
  refused : ∀ e, named = .error e ↔ bare = .error e
  /-- The column names stand behind the name of the table, and that is all the difference. -/
  written : ∀ s t, named = .ok s → bare = .ok t → s.values = t.values ∧
    t.script = opening table options ++ valueList columns.length ∧
    s.script = opening table options ++ nameList columns ++ valueList columns.length
  /-- What replaces a row cannot say what else to do about it. -/
  replace : options.verb = .replace → options.onConflict.isSome →
    ∃ e, named = .error e ∧ bound = .error e ∧ bare = .error e

/-- As many columns as values make one row in three ways. -/
theorem oneRow_of_length {columns : List String} {values : List Value}
    (h : columns.length = values.length) (table : String) (options : InsertOptions) :
    OneRow table columns options (row table (some columns) columns.length values options)
      (ofBindings table (columns.zip values) options) (fast table values options) := by
  have hbound : ofBindings table (columns.zip values) options =
      row table (some columns) columns.length values options := by
    rw [ofBindings, Bindings.columns_zip h, Bindings.values_zip h]
  rw [hbound, fast, ← h]
  by_cases hc : columns = []
  · -- whatever the options are, there is nothing to insert
    subst hc
    rw [List.length_nil, row_zero, row_zero]
    refine ⟨rfl, fun _ => ⟨rfl, rfl⟩, Iff.rfl, fun _ => Iff.rfl, ?_, fun _ _ => ⟨_, rfl, rfl, rfl⟩⟩
    intro s t hs
    cases hs
  · have hl : columns.length ≠ 0 := mt List.length_eq_zero_iff.1 hc
    rw [row_of_ne_zero hl, row_of_ne_zero hl]
    cases hw : lead options with
    | error e =>
      refine ⟨rfl, fun h => absurd h hc, ?_, fun _ => Iff.rfl, ?_, fun _ _ => ⟨e, rfl, rfl, rfl⟩⟩
      · refine iff_of_false ?_ ?_ <;> rintro ⟨_, ⟨⟩⟩
      · intro s t hs
        cases hs
    | ok w =>
      refine ⟨rfl, fun h => absurd h hc, iff_of_true ⟨_, rfl⟩ ⟨_, rfl⟩, ?_, ?_, ?_⟩
      · refine fun e => iff_of_false ?_ ?_ <;> rintro ⟨⟩
      · intro s t hs ht
        cases hs
        cases ht
        rw [lead_eq_ok hw]
        exact ⟨rfl, target_none table options _, target_some table options columns _⟩
      · intro hv ho
        rw [lead, if_pos ⟨hv, ho⟩] at hw
        cases hw

/-- **All ways to insert one row agree**, on the leading columns and values of which there are as
many of the one as of the other. -/
theorem oneRow_agrees (table : String) (columns : List String) (values : List Value)
    (options : InsertOptions) :
    let m := min columns.length values.length
    OneRow table (columns.take m) options (intoColumns table columns values options).result
      (ofBindings table ((columns.take m).zip (values.take m)) options)
      (fast table (values.take m) options) := by
  intro m
  have hlen : (columns.take m).length = (values.take m).length := by
    rw [List.length_take, List.length_take]
    omega
  rw [result_intoColumns]
  exact oneRow_of_length hlen table options

/-- Columns without values are left out, and the value of a common table comes first. -/
example : (intoColumns "t" ["a", "b", "c"] [.integer 1, .null]
    { onConflict := some .ignore, tables := [⟨"w", ⟨"SELECT ?", [.integer 7]⟩⟩] }).result =
      .ok ⟨"WITH w AS (SELECT ?) INSERT OR IGNORE INTO t (a, b) VALUES (?, ?)",
        [.integer 7, .integer 1, .null]⟩ := by
  decide

end Insert

end BoundSql
