import BoundSql.Proofs.Reconciliation
import Mathlib.Data.List.GetD

/-!
# Columns of values as rows

Columns of values are turned into rows, as many as the shortest column has values.  Filling rows
that are empty at first with one column after the other gives the same rows
(`Reconcile.foldl_push`), and what they contain is summed up in `Reconcile.Transposes`.

A bulk insert of columns is a bulk insert of these rows: they are all as long as there are columns,
so that nothing is padded, cropped or reported a second time (`Insert.manyColumns_eq`).  The main
statement is `Insert.manyColumns_transposes`.
-/

namespace BoundSql

/-- How to go on matters for the result only. -/
theorem Build.bind_congr_of_ok {α β : Type} {x : Build α} {a : α} (h : x.result = .ok a)
    {f g : α → Build β} (hfg : f a = g a) : x >>= f = x >>= g := by
  obtain ⟨es, r⟩ := x
  cases h
  rw [mk_ok_bind, mk_ok_bind, hfg]

namespace Reconcile

variable {n : Nat} {columns : List (String × List Value)}

theorem getElem?_eq_some_getD {values : List Value} {i : Nat} (h : i < values.length) :
    values[i]? = some (values.getD i .null) := by
  rw [List.getElem?_eq_getElem h, List.getD_eq_getElem _ _ h]

/-- The first values of all columns, as rows. -/
def rowsOf (n : Nat) (columns : List (String × List Value)) : List Row :=
  (List.range n).map fun i => columns.map fun c => c.2.getD i .null

@[simp] theorem length_rowsOf : (rowsOf n columns).length = n := by
  rw [rowsOf, List.length_map, List.length_range]

theorem result_zipColumns_eq_rowsOf (table : String) (columns : List (String × List Value)) :
    (zipColumns table columns).result =
      .ok (columns.map Prod.fst, rowsOf (height columns) columns) :=
  result_zipColumns table columns

theorem length_of_mem_rowsOf {row : Row} (h : row ∈ rowsOf n columns) :
    row.length = columns.length := by
  obtain ⟨i, -, rfl⟩ := List.mem_map.1 h
  exact List.length_map _

theorem getElem?_rowsOf {i : Nat} (h : i < n) :
    (rowsOf n columns)[i]? = some (columns.map fun c => c.2.getD i .null) := by
  rw [rowsOf, List.getElem?_map, List.getElem?_range h, Option.map_some]

/-! ### One column after the other -/

/-- Adds a value of the column at the end of each row, as long as there are rows and values. -/
def push : List Row → List Value → List Row
  | row :: rows, v :: values => (row ++ [v]) :: push rows values
  | rows, _ => rows

theorem getElem?_push (rows : List Row) (values : List Value) (i : Nat) :
    (push rows values)[i]? = rows[i]?.map fun row => row ++ values[i]?.toList := by
  induction rows, values using push.induct generalizing i with
  | case1 row rows v values ih =>
    rw [push]
    cases i with
    | zero => rfl
    | succ i => exact ih i
  | case2 rows values hstop =>
    -- no row is left, or no value
    rw [push]
    · cases rows with
      | nil => rfl
      | cons row rows =>
        cases values with
        | nil => simp
        | cons v values => exact absurd rfl (hstop row rows v values rfl)
    · exact hstop

/-- A column that has a value for each row goes on with all of them. -/
theorem push_map_range {values : List Value} (h : n ≤ values.length) (f : Nat → Row) :
    push ((List.range n).map f) values =
      (List.range n).map fun i => f i ++ [values.getD i .null] := by
  refine List.ext_getElem? fun i => ?_
  rw [getElem?_push, List.getElem?_map, List.getElem?_map, Option.map_map]
  by_cases hi : i < n
  · have hvalue := getElem?_eq_some_getD (Nat.lt_of_lt_of_le hi h)
    rw [List.getElem?_range hi, Option.map_some, Option.map_some, Function.comp_apply, hvalue]
    rfl
  · have hnone : (List.range n)[i]? = none := by
      rw [List.getElem?_eq_none_iff, List.length_range]
      exact Nat.not_lt.1 hi
    rw [hnone]
    rfl

/-- After some columns, each row holds what they have at its place. -/
theorem foldl_push_map_range (h : ∀ c ∈ columns, n ≤ c.2.length) (f : Nat → Row) :
    columns.foldl (fun rows c => push rows c.2) ((List.range n).map f) =
      (List.range n).map fun i => f i ++ columns.map fun c => c.2.getD i .null := by
  induction columns generalizing f with
  | nil => simp only [List.foldl_nil, List.map_nil, List.append_nil]
  | cons c columns ih =>
    obtain ⟨hc, hcolumns⟩ := List.forall_mem_cons.1 h
    rw [List.foldl_cons, push_map_range hc, ih hcolumns]
    simp only [List.map_cons, List.append_assoc, List.singleton_append]

/-- The rows are those that the columns fill, one after the other. -/
theorem foldl_push (columns : List (String × List Value)) :
    columns.foldl (fun rows c => push rows c.2) (List.replicate (height columns) []) =
      rowsOf (height columns) columns := by
  have hempty : List.replicate (height columns) ([] : Row) =
      (List.range (height columns)).map fun _ => [] := by
    rw [List.map_const', List.length_range]
  rw [hempty, foldl_push_map_range fun c hc => height_le hc]
  rfl

/-! ### What the rows contain -/

/-- Rows read column by column, under the names of the columns. -/
def columnsOf (names : List String) (rows : List Row) : List (String × List Value) :=
  names.mapIdx fun j name => (name, rows.filterMap fun row => row[j]?)

/-- The names and rows contain what the columns do, up to the length of the shortest column. -/
structure Transposes (columns : List (String × List Value)) (names : List String)
    (rows : List Row) : Prop where
  /-- The names are in order. -/
  names_eq : names = columns.map Prod.fst
  /-- No column is too short for the rows. -/
  length_le : ∀ c ∈ columns, rows.length ≤ c.2.length
  /-- There are as many rows as the shortest column has values. -/
  shortest : columns ≠ [] → ∃ c ∈ columns, c.2.length = rows.length
  /-- Without columns there are no rows. -/
  empty : columns = [] → rows = []
  /-- A row has one entry for each column. -/
  length_row : ∀ row ∈ rows, row.length = columns.length
  /-- A row has the values of all columns at its place, each at the place of the column. -/
  cell_eq : ∀ i j, i < rows.length → cell rows i j = columns[j]? >>= fun c => c.2[i]?
  /-- Read column by column, the rows give the columns without the values left over. -/
  columnsOf_eq : columnsOf names rows = columns.map fun c => (c.1, c.2.take rows.length)
  /-- Columns of one length are restored. -/
  restored : (∀ c ∈ columns, ∀ d ∈ columns, c.2.length = d.2.length) →
    columnsOf names rows = columns

theorem cell_rowsOf (h : ∀ c ∈ columns, n ≤ c.2.length) {i : Nat} (hi : i < n) (j : Nat) :
    cell (rowsOf n columns) i j = columns[j]? >>= fun c => c.2[i]? := by
  rw [cell, getElem?_rowsOf hi]
  change (columns.map fun c => c.2.getD i .null)[j]? = _
  rw [List.getElem?_map]
  cases hj : columns[j]? with
  | none => rfl
  | some c =>
    have hlt : i < c.2.length := Nat.lt_of_lt_of_le hi (h c (List.mem_of_getElem? hj))
    exact (getElem?_eq_some_getD hlt).symm

theorem map_range_getD {values : List Value} (h : n ≤ values.length) :
    ((List.range n).map fun i => values.getD i .null) = values.take n := by
  have hlength : ((List.range n).map fun i => values.getD i .null).length =
      (values.take n).length := by
    rw [List.length_map, List.length_range, List.length_take, Nat.min_eq_left h]
  refine List.ext_getElem hlength fun i hi _ => ?_
  have hn : i < n := by simpa using hi
  rw [List.getElem_map, List.getElem_range, List.getElem_take,
    List.getD_eq_getElem _ _ (Nat.lt_of_lt_of_le hn h)]

theorem columnsOf_rowsOf (h : ∀ c ∈ columns, n ≤ c.2.length) :
    columnsOf (columns.map Prod.fst) (rowsOf n columns) =
      columns.map fun c => (c.1, c.2.take n) := by
  refine List.ext_getElem (by simp [columnsOf]) fun j hj _ => ?_
  have hlt : j < columns.length := by simpa [columnsOf] using hj
  -- the rows have, at the place of a column, what they were given of it
  have hcolumn : ((rowsOf n columns).filterMap fun row => row[j]?) = columns[j].2.take n := by
    rw [rowsOf, List.filterMap_map, ← map_range_getD (h _ (List.getElem_mem hlt)),
      ← List.filterMap_eq_map]
    refine List.filterMap_congr fun i _ => ?_
    simp [hlt]
  simp only [columnsOf, List.getElem_mapIdx, List.getElem_map, hcolumn]

/-- Nothing is left over of columns of one length. -/
theorem map_take_height (h : ∀ c ∈ columns, ∀ d ∈ columns, c.2.length = d.2.length) :
    (columns.map fun c => (c.1, c.2.take (height columns))) = columns := by
  have hself : ∀ c ∈ columns, (c.1, c.2.take (height columns)) = c := by
    intro c hc
    obtain ⟨d, hd, hshort⟩ := exists_length_eq_height (List.ne_nil_of_mem hc)
    rw [← hshort, ← h c hc d hd, List.take_length]
  rw [List.map_congr_left hself, List.map_id']

theorem transposes_rowsOf (columns : List (String × List Value)) :
    Transposes columns (columns.map Prod.fst) (rowsOf (height columns) columns) where
  names_eq := rfl
  length_le c hc := by
    rw [length_rowsOf]
    exact height_le hc
  shortest h := by
    rw [length_rowsOf]
    exact exists_length_eq_height h
  empty h := by
    subst h
    rfl
  length_row _ hrow := length_of_mem_rowsOf hrow
  cell_eq i j hi := by
    rw [length_rowsOf] at hi
    exact cell_rowsOf (fun c hc => height_le hc) hi j
  columnsOf_eq := by
    rw [length_rowsOf]
    exact columnsOf_rowsOf fun c hc => height_le hc
  restored h := by
    rw [columnsOf_rowsOf fun c hc => height_le hc]
    exact map_take_height h

/-! ### Rows that fit -/

/-- Rows of the right length are left alone. -/
theorem fitRows_of_length {rows : List Row} {arity : Nat}
    (h : ∀ row ∈ rows, row.length = arity) (table : String) :
    fitRows table rows arity = pure (rows, 0) := by
  have hcount := countP_eq_zero_iff.2 h
  have hfit : rows.map (fit arity) = rows := by
    have hself : ∀ row ∈ rows, fit arity row = row := fun row hrow => h row hrow ▸ fit_length row
    rw [List.map_congr_left hself, List.map_id']
  unfold fitRows
  simp only [hcount, hfit, Nat.lt_irrefl, if_false]

theorem widest_of_length {rows : List Row} {arity : Nat} (hrows : rows ≠ [])
    (h : ∀ row ∈ rows, row.length = arity) : widest rows = arity := by
  obtain ⟨row, hrow⟩ := List.exists_mem_of_ne_nil rows hrows
  have hlongest : ∀ other ∈ rows, other.length ≤ row.length :=
    fun other hother => Nat.le_of_eq ((h other hother).trans (h row hrow).symm)
  exact (widest_eq hrow hlongest).trans (h row hrow)

end Reconcile

namespace Insert

open Reconcile

/-- Rows that have as many values as there are columns are written as they are. -/
theorem manyRows_of_length {names : List String} {rows : List Row}
    (hnames : names ≠ []) (hrows : rows ≠ []) (h : ∀ row ∈ rows, row.length = names.length)
    (table : String) (options : InsertOptions) :
    manyRows table names rows options =
      Build.ofExcept (head table options.verb options.onConflict (some names) names.length) >>=
        fun script => Build.ofExcept (CommonTable.beforeBatch options.tables ⟨script, rows⟩) := by
  have hw : widest rows = names.length := widest_of_length hrows h
  have hne : names.length ≠ 0 := mt List.length_eq_zero_iff.1 hnames
  unfold manyRows
  simp only [hw, hne, if_false, List.take_length, fitRows_of_length h, pure_bind, Nat.lt_irrefl,
    and_false]

/-- Without rows there is nothing to insert. -/
theorem manyRows_nil (table : String) (names : List String) (options : InsertOptions) :
    manyRows table names [] options = Build.fail (.noData "insert_many") := rfl

/-- A bulk insert of columns is one of the rows they make, and reports what making them does. -/
theorem manyColumns_eq (table : String) (columns : List (String × List Value))
    (options : InsertOptions) :
    manyColumns table columns options =
      zipColumns table columns >>= fun x => manyRows table x.1 x.2 options := by
  unfold manyColumns
  refine Build.bind_congr_of_ok (result_zipColumns_eq_rowsOf table columns) ?_
  have hrows : ∀ row ∈ rowsOf (height columns) columns,
      row.length = (columns.map Prod.fst).length := fun row hrow => by
    rw [length_of_mem_rowsOf hrow, List.length_map]
  simp only
  split_ifs with hempty
  · have hnil : rowsOf (height columns) columns = [] := by
      rw [List.isEmpty_iff, List.isEmpty_iff, List.map_eq_nil_iff] at hempty
      rcases hempty with rfl | hnil
      · rfl
      · exact hnil
    rw [hnil, manyRows_nil]
  · rw [List.isEmpty_iff, List.isEmpty_iff, not_or] at hempty
    rw [manyRows_of_length hempty.1 hempty.2 hrows]

/-- **Columns are inserted as the rows they make**: names and values are transposed, and inserting
the rows gives the same batch as inserting the columns, or fails for the same reason. -/
theorem manyColumns_transposes (table : String) (columns : List (String × List Value)) :
    ∃ names rows, (zipColumns table columns).result = .ok (names, rows) ∧
      Transposes columns names rows ∧
      rows = columns.foldl (fun rows c => push rows c.2) (List.replicate (height columns) []) ∧
      ∀ options, (manyColumns table columns options).result =
        (manyRows table names rows options).result := by
  refine ⟨_, _, result_zipColumns_eq_rowsOf table columns, transposes_rowsOf columns,
    (foldl_push columns).symm, fun options => ?_⟩
  rw [manyColumns_eq, Build.result_bind, result_zipColumns_eq_rowsOf]
  rfl

/-- What the longer column has more than the shorter one is left out. -/
example : (manyColumns "t" [("a", [.integer 1, .integer 2]), ("b", [.null])] {}).result =
    .ok ⟨"INSERT INTO t (a, b) VALUES (?, ?)", [[.integer 1, .null]]⟩ := by
  decide

end Insert

end BoundSql
