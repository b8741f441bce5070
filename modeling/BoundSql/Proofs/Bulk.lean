import BoundSql.Proofs.FastInsert
import Mathlib.Data.List.Forall2

/-!
# Bulk inserts

A bulk insert of rows has one text for all of them.  It is as wide as its longest row: shorter rows
are padded with nulls, and no row is longer than the table has columns.  `Insert.manyRows_agrees` is
the main statement: the batch has the text and the values of the single inserts of its padded rows,
and it cannot be built if and only if they cannot, for the same reason.
-/

namespace BoundSql

/-! ### Rows of one length -/

/-- All rows have the same number of values. -/
def Batch.IsRectangular (b : Batch) : Prop := ∃ n, ∀ row ∈ b.rows, row.length = n

/-- The values of common tables make all rows longer by the same number. -/
theorem CommonTable.isRectangular_beforeBatch {tables : List CommonTable} {b b' : Batch}
    (h : b.IsRectangular) (hb : beforeBatch tables b = .ok b') : b'.IsRectangular := by
  obtain ⟨n, hn⟩ := h
  obtain ⟨w, -, hw⟩ := bind_eq_ok.1 hb
  cases hw
  refine ⟨w.values.length + n, fun row hrow => ?_⟩
  obtain ⟨given, hgiven, rfl⟩ := List.mem_map.1 hrow
  rw [List.length_append, hn given hgiven]

namespace Insert

theorem isRectangular_manyRows {table : String} {columns : List String} {rows : List Row}
    {options : InsertOptions} {b : Batch}
    (h : (manyRows table columns rows options).result = .ok b) : b.IsRectangular := by
  rw [result_manyRows] at h
  simp only at h
  split at h
  · cases h
  · obtain ⟨script, -, hb⟩ := bind_eq_ok.1 h
    let arity := (columns.take (Reconcile.widest rows)).length
    refine CommonTable.isRectangular_beforeBatch ⟨arity, fun row hrow => ?_⟩ hb
    obtain ⟨given, -, rfl⟩ := List.mem_map.1 hrow
    exact Reconcile.length_fit arity given

theorem isRectangular_manyColumns {table : String} {columns : List (String × List Value)}
    {options : InsertOptions} {b : Batch}
    (h : (manyColumns table columns options).result = .ok b) : b.IsRectangular := by
  rw [result_manyColumns] at h
  simp only at h
  split at h
  · cases h
  · obtain ⟨script, -, hb⟩ := bind_eq_ok.1 h
    refine CommonTable.isRectangular_beforeBatch ⟨columns.length, fun row hrow => ?_⟩ hb
    obtain ⟨i, -, rfl⟩ := List.mem_map.1 hrow
    exact List.length_map _

end Insert

namespace Reconcile

/-! ### The width of rows -/

theorem foldl_max_length_le {rows : List Row} {n bound : Nat} :
    rows.foldl (fun n row => max n row.length) n ≤ bound ↔
      n ≤ bound ∧ ∀ row ∈ rows, row.length ≤ bound := by
  induction rows generalizing n with
  | nil => simp only [List.foldl_nil, List.not_mem_nil, false_implies, implies_true, and_true]
  | cons row rows ih =>
    rw [List.foldl_cons, ih, Nat.max_le, List.forall_mem_cons, and_assoc]

theorem widest_le_iff {rows : List Row} {bound : Nat} :
    widest rows ≤ bound ↔ ∀ row ∈ rows, row.length ≤ bound := by
  rw [widest, foldl_max_length_le]
  exact and_iff_right (Nat.zero_le bound)

/-- The rows are as wide as the longest one. -/
theorem widest_eq {rows : List Row} {row : Row} (hrow : row ∈ rows)
    (hlongest : ∀ other ∈ rows, other.length ≤ row.length) : widest rows = row.length :=
  Nat.le_antisymm (widest_le_iff.2 hlongest) (widest_le_iff.1 (Nat.le_refl _) row hrow)

/-! ### Padding -/

/-- The row with nulls added at the end up to a width. -/
def pad (width : Nat) (row : Row) : Row := row ++ List.replicate (width - row.length) .null

theorem pad_length (row : Row) : pad row.length row = row := by
  rw [pad, Nat.sub_self, List.replicate_zero, List.append_nil]

theorem length_pad {width : Nat} {row : Row} (h : row.length ≤ width) :
    (pad width row).length = width := by
  rw [pad, List.length_append, List.length_replicate]
  omega

/-- Padding to a width and cropping to fewer values is fitting to these. -/
theorem take_pad {arity width : Nat} (h : arity ≤ width) (row : Row) :
    (pad width row).take arity = fit arity row := by
  rw [pad, fit, List.take_append, List.take_replicate]
  congr 2
  omega

end Reconcile

/-! ### One text for all rows -/

namespace Insert

/-- The text of an insert, without what stands in front of it. -/
def text (table : String) (columns : List String) (options : InsertOptions) : String :=
  target table options.verb options.onConflict (some columns) ++
    Placeholder.list columns.length ++ ")"

theorem batch_of_ne_zero {columns : List String} (h : columns.length ≠ 0) (table : String)
    (rows : List Row) (options : InsertOptions) :
    (head table options.verb options.onConflict (some columns) columns.length >>= fun script =>
      CommonTable.beforeBatch options.tables ⟨script, rows⟩) =
      (fun w => ⟨w.script ++ text table columns options, rows.map (w.values ++ ·)⟩) <$>
        lead options := by
  unfold head lead
  rw [if_neg h]
  split
  · rfl
  · rw [map_eq_pure_bind]
    rfl

section

variable {columns : List String} (hc : columns ≠ []) {width : Nat} (hw : width ≠ 0)
  (table : String) (options : InsertOptions)

include hc hw

theorem length_take_ne_zero : (columns.take width).length ≠ 0 := by
  have := List.length_pos_iff.2 hc
  rw [List.length_take]
  omega

theorem result_manyRows_of_ne_zero {rows : List Row} (h : Reconcile.widest rows = width) :
    (manyRows table columns rows options).result =
      (fun w => ⟨w.script ++ text table (columns.take width) options,
        rows.map fun row => w.values ++ Reconcile.fit (columns.take width).length row⟩) <$>
        lead options := by
  rw [result_manyRows, h]
  simp only
  rw [if_neg hw, batch_of_ne_zero (length_take_ne_zero hc hw)]
  simp only [List.map_map, Function.comp_def]

/-- A padded row is cropped to the columns, as in a bulk insert. -/
theorem result_intoColumns_pad {row : Row} (h : row.length ≤ width) :
    (intoColumns table columns (Reconcile.pad width row) options).result =
      (fun w => w ++ ⟨text table (columns.take width) options,
        Reconcile.fit (columns.take width).length row⟩) <$> lead options := by
  have hkeep : columns.take (min columns.length width) = columns.take width := by
    rw [List.take_eq_take_iff]
    omega
  have hvalues : (Reconcile.pad width row).take (min columns.length width) =
      Reconcile.fit (columns.take width).length row := by
    rw [Reconcile.take_pad (Nat.min_le_right _ _), List.length_take, Nat.min_comm]
  rw [result_intoColumns]
  simp only
  rw [Reconcile.length_pad h, hkeep, hvalues, row_of_ne_zero (length_take_ne_zero hc hw)]
  rfl

end

section

variable {rows : List Row} {one : Row → Except Error Statement} {values : Row → Row}

/-- The statements of single rows, of which there is one, are a batch if they have its text and the
values of its rows. -/
theorem forall₂_iff_batch (h : rows ≠ []) {script : String}
    (hone : ∀ row ∈ rows, one row = .ok ⟨script, values row⟩) (b : Batch) :
    List.Forall₂ (fun row given => one row = .ok ⟨b.script, given⟩) rows b.rows ↔
      b = ⟨script, rows.map values⟩ := by
  constructor
  · intro hb
    have hvalues : List.Forall₂ (fun row given => script = b.script ∧ values row = given) rows
        b.rows := by
      refine List.forall₂_iff_get.2 ⟨hb.length_eq, fun i hi hi' => ?_⟩
      have hstatement := (hone _ (List.get_mem _ _)).symm.trans (hb.get hi hi')
      exact Fragment.mk.inj (Except.ok.inj hstatement)
    obtain ⟨hscript, hrows⟩ := (List.forall₂_and_left _ _).1 hvalues
    rw [← List.forall₂_map_left_iff (R := Eq), List.forall₂_eq_eq_eq] at hrows
    obtain ⟨first, hfirst⟩ := List.exists_mem_of_ne_nil rows h
    rw [hrows, hscript first hfirst]
  · rintro rfl
    exact List.forall₂_map_right_iff.2 (List.forall₂_same.2 hone)

/-- What a batch and single statements have in common if the same stands in front of them. -/
theorem agrees_of_lead (h : rows ≠ []) {script : String} {lead : Except Error Fragment}
    {many : Except Error Batch} (hmany : many =
      (fun w => ⟨w.script ++ script, rows.map fun row => w.values ++ values row⟩) <$> lead)
    (hone : ∀ row ∈ rows, one row = (fun w => w ++ ⟨script, values row⟩) <$> lead) :
    ((∃ b, many = .ok b) ↔ ∀ row ∈ rows, ∃ s, one row = .ok s) ∧
      (∀ e, many = .error e ↔ ∀ row ∈ rows, one row = .error e) ∧
      ∀ b, many = .ok b ↔
        List.Forall₂ (fun row values => one row = .ok ⟨b.script, values⟩) rows b.rows := by
  subst hmany
  -- one row is enough to tell how all of them fare
  obtain ⟨first, hfirst⟩ := List.exists_mem_of_ne_nil rows h
  cases lead with
  | error e =>
    have hfails : ∀ row ∈ rows, one row = .error e := hone
    refine ⟨?_, fun e' => ?_, fun b => ?_⟩
    · constructor
      · rintro ⟨b, hb⟩
        cases hb
      · intro hs
        obtain ⟨s, hs⟩ := hs first hfirst
        cases (hfails first hfirst).symm.trans hs
    · constructor
      · intro he
        cases he
        exact hfails
      · intro he
        cases (hfails first hfirst).symm.trans (he first hfirst)
        rfl
    · constructor
      · intro hb
        cases hb
      · intro hb
        obtain ⟨i, hi, -⟩ := List.getElem_of_mem hfirst
        have hrow := hb.get hi (hb.length_eq ▸ hi)
        cases (hfails _ (List.get_mem _ _)).symm.trans hrow
  | ok w =>
    have hbuilt : ∀ row ∈ rows, one row = .ok ⟨w.script ++ script, w.values ++ values row⟩ := hone
    refine ⟨?_, fun e => ?_, fun b => ?_⟩
    · exact iff_of_true ⟨_, rfl⟩ fun row hrow => ⟨_, hbuilt row hrow⟩
    · constructor
      · intro he
        cases he
      · intro he
        cases (hbuilt first hfirst).symm.trans (he first hfirst)
    · rw [forall₂_iff_batch h hbuilt]
      constructor
      · intro hb
        cases hb
        rfl
      · rintro rfl
        rfl

end

/-- **A bulk insert agrees with the single inserts of its rows**, padded to the length of the
longest one. -/
theorem manyRows_agrees (table : String) {columns : List String} (hc : columns ≠ [])
    {rows : List Row} (hrows : ∃ row ∈ rows, row ≠ []) {width : Nat}
    (hwidth : ∃ row ∈ rows, row.length = width) (hlongest : ∀ row ∈ rows, row.length ≤ width)
    (options : InsertOptions) :
    let many := (manyRows table columns rows options).result
    let one row := (intoColumns table columns (Reconcile.pad width row) options).result
    ((∃ b, many = .ok b) ↔ ∀ row ∈ rows, ∃ s, one row = .ok s) ∧
      (∀ e, many = .error e ↔ ∀ row ∈ rows, one row = .error e) ∧
      (∀ b, many = .ok b ↔
        List.Forall₂ (fun row values => one row = .ok ⟨b.script, values⟩) rows b.rows) ∧
      ∀ row, rows = [row] →
        many = Fragment.asBatch <$> (intoColumns table columns row options).result := by
  intro many one
  obtain ⟨longest, hmem, rfl⟩ := hwidth
  obtain ⟨first, hfirst, hne⟩ := hrows
  have hpos : 0 < first.length := List.length_pos_iff.2 hne
  have hw : longest.length ≠ 0 := Nat.ne_of_gt (Nat.lt_of_lt_of_le hpos (hlongest first hfirst))
  have hmany : many = _ :=
    result_manyRows_of_ne_zero hc hw table options (Reconcile.widest_eq hmem hlongest)
  have hone (row : Row) (hrow : row ∈ rows) : one row = _ :=
    result_intoColumns_pad hc hw table options (hlongest row hrow)
  obtain ⟨hok, herror, hbatch⟩ := agrees_of_lead (List.ne_nil_of_mem hmem) hmany hone
  refine ⟨hok, herror, hbatch, fun row hrow => ?_⟩
  -- a single row is the longest one, so nothing is added to it
  subst hrow
  cases List.mem_singleton.1 hmem
  have hsingle := hone longest hmem
  simp only [one, Reconcile.pad_length] at hsingle
  rw [hmany, hsingle, Functor.map_map]
  rfl

/-- An empty row, a short one and a long one, with a common table whose value leads them. -/
theorem manyRows_agrees_uneven :
    let rows : List Row := [[], [.integer 1], [.integer 2, .null, .integer 3]]
    let options : InsertOptions := { tables := [⟨"c", ⟨"SELECT ?", [.integer 7]⟩⟩] }
    let b : Batch := ⟨"WITH c AS (SELECT ?) INSERT INTO t (n, d) VALUES (?, ?)",
      [[.integer 7, .null, .null], [.integer 7, .integer 1, .null],
        [.integer 7, .integer 2, .null]]⟩
    (["n", "d"] : List String) ≠ [] ∧ (∃ row ∈ rows, row ≠ []) ∧
      (∃ row ∈ rows, row.length = 3) ∧ (∀ row ∈ rows, row.length ≤ 3) ∧
      (manyRows "t" ["n", "d"] rows options).result = .ok b ∧
      List.Forall₂ (fun row values => (intoColumns "t" ["n", "d"] (Reconcile.pad 3 row)
        options).result = .ok ⟨b.script, values⟩) rows b.rows := by
  intro rows options b
  have hc : (["n", "d"] : List String) ≠ [] := by decide
  have hrows : ∃ row ∈ rows, row ≠ [] := by decide
  have hwidth : ∃ row ∈ rows, row.length = 3 := by decide
  have hlongest : ∀ row ∈ rows, row.length ≤ 3 := by decide
  have hb : (manyRows "t" ["n", "d"] rows options).result = .ok b := rfl
  exact ⟨hc, hrows, hwidth, hlongest, hb,
    ((manyRows_agrees "t" hc hrows hwidth hlongest options).2.2.1 b).1 hb⟩

end Insert

end BoundSql
