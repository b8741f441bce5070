import BoundSql.Proofs.Bulk
import BoundSql.Proofs.Substitution

/-!
# Warnings about data that do not fit

Reconciling drops values, adds nulls and leaves columns out, and says so in a warning.
`Insert.warns_once` is the main statement: an insert of values, of rows or of columns of values
reports exactly one warning if its data do not fit and none if they do, and they do not fit if and
only if what is written is not what was supplied (`Alters`).  So nothing is lost or made up without
a warning, and no warning is about nothing.
-/

namespace BoundSql

/-! ### What is reported -/

namespace Build

variable {α β : Type}

/-- The warnings among what is reported. -/
def warnings (x : Build α) : List Event := x.events.filter fun e => e.level = .warning

@[simp] theorem warnings_ofExcept (r : Except Error α) : (ofExcept r).warnings = [] := rfl

theorem warnings_map (f : α → β) (x : Build α) : (f <$> x).warnings = x.warnings := by
  obtain ⟨es, r⟩ := x
  cases r with
  | ok a => exact congrArg (List.filter _) (List.append_nil es)
  | error e => rfl

theorem warnings_bind_of_ok {x : Build α} {a : α} (h : x.result = .ok a) (f : α → Build β) :
    (x >>= f).warnings = x.warnings ++ (f a).warnings := by
  obtain ⟨es, r⟩ := x
  cases h
  exact List.filter_append es (f a).events

/-- There is no warning if something holds, and exactly one if it does not. -/
def WarnsUnless (fits : Prop) (x : Build α) : Prop :=
  (fits → x.warnings = []) ∧ (¬ fits → ∃ e, x.warnings = [e])

theorem warnsUnless_congr {fits fits' : Prop} (h : fits ↔ fits') {x : Build α} :
    x.WarnsUnless fits ↔ x.WarnsUnless fits' := by
  rw [propext h]

/-- A step without warnings changes nothing. -/
theorem warnsUnless_bind_iff {fits : Prop} {x : Build α} {a : α} (ha : x.result = .ok a)
    (hx : x.warnings = []) {f : α → Build β} :
    (x >>= f).WarnsUnless fits ↔ (f a).WarnsUnless fits := by
  rw [WarnsUnless, warnings_bind_of_ok ha, hx, List.nil_append]
  rfl

/-- A step that warns and one that does not. -/
theorem WarnsUnless.bind {fits : Prop} {x : Build α} (hx : x.WarnsUnless fits) {a : α}
    (ha : x.result = .ok a) {f : α → Build β} (hf : (f a).warnings = []) :
    (x >>= f).WarnsUnless fits := by
  rwa [WarnsUnless, warnings_bind_of_ok ha, hf, List.append_nil]

/-- Two steps of which the second one warns only if the first one did not. -/
theorem WarnsUnless.bind_of_fits {fits fits' : Prop} {x : Build α} (hx : x.WarnsUnless fits) {a : α}
    (ha : x.result = .ok a) {f : α → Build β} (hf : (f a).WarnsUnless (fits → fits')) :
    (x >>= f).WarnsUnless (fits ∧ fits') := by
  rw [WarnsUnless, warnings_bind_of_ok ha]
  by_cases h : fits
  · rw [hx.1 h, List.nil_append]
    simpa [WarnsUnless, h] using hf
  · obtain ⟨e, he⟩ := hx.2 h
    rw [he, hf.1 (fun hfits => absurd hfits h)]
    exact ⟨fun hfits => absurd hfits.1 h, fun _ => ⟨e, rfl⟩⟩

end Build

namespace Reconcile

theorem warnsUnless_crop {α : Type} (table : String) (columns : List α) (values : List Value) :
    (crop table columns values).WarnsUnless (values.length = columns.length) := by
  unfold crop
  split_ifs with h
  · exact ⟨fun _ => rfl, fun hn => absurd h.symm hn⟩
  · exact ⟨fun hn => absurd hn.symm h, fun _ => ⟨_, rfl⟩⟩

/-- Adjusted rows are counted: none if and only if all have the length asked for. -/
theorem countP_eq_zero_iff {rows : List Row} {arity : Nat} :
    (rows.countP fun row => row.length < arity) + (rows.countP fun row => arity < row.length) = 0 ↔
      ∀ row ∈ rows, row.length = arity := by
  simp only [Nat.add_eq_zero_iff, List.countP_eq_zero, decide_eq_true_eq, ← forall_and]
  refine forall₂_congr fun row _ => ?_
  omega

/-- Rows are adjusted with one warning for all of them. -/
theorem fitRows_spec (table : String) (rows : List Row) (arity : Nat) :
    ∃ changed, (fitRows table rows arity).result = .ok (rows.map (fit arity), changed) ∧
      (changed = 0 ↔ ∀ row ∈ rows, row.length = arity) ∧
      (fitRows table rows arity).WarnsUnless (changed = 0) := by
  refine ⟨_, ?_, countP_eq_zero_iff, ?_⟩
  · unfold fitRows
    simp only
    split_ifs <;> rfl
  · unfold fitRows
    simp only
    split_ifs with h
    · exact ⟨fun h0 => absurd h0 (Nat.ne_of_gt h), fun _ => ⟨_, rfl⟩⟩
    · exact ⟨fun _ => rfl, fun h0 => absurd (Nat.eq_zero_of_not_pos h) h0⟩

/-- The longest column has no fewer values than any other. -/
theorem le_tallest {columns : List (String × List Value)} {c : String × List Value}
    (hc : c ∈ columns) : c.2.length ≤ tallest columns :=
  List.le_max?_getD_of_mem (List.mem_map_of_mem hc)

theorem exists_length_eq_height {columns : List (String × List Value)} (h : columns ≠ []) :
    ∃ c ∈ columns, c.2.length = height columns := by
  have hsome : (columns.map fun c => c.2.length).min? ≠ none := by simpa using h
  obtain ⟨n, hn⟩ := Option.ne_none_iff_exists'.1 hsome
  rw [height, hn]
  exact List.mem_map.1 (List.min?_mem hn)

theorem exists_length_eq_tallest {columns : List (String × List Value)} (h : columns ≠ []) :
    ∃ c ∈ columns, c.2.length = tallest columns := by
  have hsome : (columns.map fun c => c.2.length).max? ≠ none := by simpa using h
  obtain ⟨n, hn⟩ := Option.ne_none_iff_exists'.1 hsome
  rw [tallest, hn]
  exact List.mem_map.1 (List.max?_mem hn)

/-- The shortest column is as long as the longest one if and only if all have one length. -/
theorem height_eq_tallest_iff {columns : List (String × List Value)} :
    height columns = tallest columns ↔ ∀ c ∈ columns, ∀ d ∈ columns, c.2.length = d.2.length := by
  constructor
  · intro h c hc d hd
    have hle := height_le hc
    have hge := le_tallest hc
    have hle' := height_le hd
    have hge' := le_tallest hd
    omega
  · intro h
    cases columns with
    | nil => rfl
    | cons c columns =>
      obtain ⟨d, hd, hshort⟩ := exists_length_eq_height (List.cons_ne_nil c columns)
      obtain ⟨e, he, hlong⟩ := exists_length_eq_tallest (List.cons_ne_nil c columns)
      rw [← hshort, ← hlong, h d hd e he]

theorem warnsUnless_zipColumns (table : String) (columns : List (String × List Value)) :
    (zipColumns table columns).WarnsUnless (height columns = tallest columns) := by
  unfold zipColumns
  simp only
  split_ifs with h
  · exact ⟨fun hn => absurd hn h, fun _ => ⟨_, rfl⟩⟩
  · exact ⟨fun _ => rfl, fun hn => absurd hn h⟩

end Reconcile

namespace Insert

theorem warnsUnless_intoColumns (table : String) (columns : List String) (values : List Value)
    (options : InsertOptions) :
    (intoColumns table columns values options).WarnsUnless (values.length = columns.length) := by
  obtain ⟨m, hm⟩ := Reconcile.result_crop table columns values
  exact (Reconcile.warnsUnless_crop table columns values).bind hm rfl

/-- Rows of the right length for as many columns as the longest one has values, and of the length
of the table. -/
theorem forall_length_iff {columns : List String} {rows : List Row}
    (hw : Reconcile.widest rows ≠ 0) :
    let arity := (columns.take (Reconcile.widest rows)).length
    (∀ row ∈ rows, row.length = arity) ∧ columns.length ≤ arity ↔
      ∀ row ∈ rows, row.length = columns.length := by
  intro arity
  have harity : arity = min (Reconcile.widest rows) columns.length := List.length_take
  constructor
  · rintro ⟨h, hn⟩ row hrow
    have := h row hrow
    omega
  · intro h
    have hle : Reconcile.widest rows ≤ columns.length :=
      Reconcile.widest_le_iff.2 fun row hrow => Nat.le_of_eq (h row hrow)
    have hge : columns.length ≤ Reconcile.widest rows := by
      -- there is a row, for without one the width is zero
      cases rows with
      | nil => exact absurd rfl hw
      | cons row rows =>
        rw [← h row List.mem_cons_self]
        exact Reconcile.widest_le_iff.1 (Nat.le_refl _) row List.mem_cons_self
    refine ⟨fun row hrow => ?_, ?_⟩
    · rw [h row hrow]
      omega
    · omega

/-- A second warning is given only if the rows needed no change. -/
theorem warnsUnless_manyRows {table : String} {columns : List String} {rows : List Row}
    {options : InsertOptions} {b : Batch}
    (h : (manyRows table columns rows options).result = .ok b) :
    (manyRows table columns rows options).WarnsUnless
      (∀ row ∈ rows, row.length = columns.length) := by
  let arity := (columns.take (Reconcile.widest rows)).length
  unfold manyRows at h ⊢
  by_cases hw : Reconcile.widest rows = 0
  · rw [if_pos hw] at h
    cases h
  · rw [if_neg hw] at h ⊢
    obtain ⟨script, hscript, -⟩ := bind_eq_ok.1 ((Build.result_bind _ _).symm.trans h)
    obtain ⟨changed, hrows, hchanged, hreported⟩ := Reconcile.fitRows_spec table rows arity
    rw [← Build.warnsUnless_congr (forall_length_iff hw), ← Build.warnsUnless_congr
      (and_congr_left' hchanged), Build.warnsUnless_bind_iff hscript rfl]
    refine hreported.bind_of_fits hrows ?_
    simp only
    split_ifs with hn
    · refine ⟨fun hf => absurd hn.2 (Nat.not_lt.2 (hf hn.1)), fun _ => ⟨_, rfl⟩⟩
    · refine ⟨fun _ => rfl, fun hf => absurd ?_ hf⟩
      exact fun h0 => Nat.not_lt.1 fun hlt => hn ⟨h0, hlt⟩

theorem warnsUnless_manyColumns (table : String) (columns : List (String × List Value))
    (options : InsertOptions) :
    (manyColumns table columns options).WarnsUnless
      (∀ c ∈ columns, ∀ d ∈ columns, c.2.length = d.2.length) := by
  have hzip := Reconcile.warnsUnless_zipColumns table columns
  rw [Build.warnsUnless_congr Reconcile.height_eq_tallest_iff] at hzip
  refine hzip.bind (Reconcile.result_zipColumns table columns) ?_
  simp only
  split_ifs
  · rfl
  · cases hs : head table options.verb options.onConflict (some (columns.map Prod.fst))
      (columns.map Prod.fst).length with
    | ok script => rw [Build.ofExcept_ok_bind, Build.warnings_ofExcept]
    | error e => rfl

end Insert

/-! ### What is written -/

/-- The value in a row and a column, both counted from zero. -/
def cell (rows : List Row) (i j : Nat) : Option Value := rows[i]? >>= fun row => row[j]?

/-- What is written is not what was supplied, or not for all columns of the table. -/
inductive Alters (supplied written : Nat → Nat → Option Value) (columns targets : List String) :
    Prop where
  /-- A supplied value is not written in its place. -/
  | dropped {i j : Nat} {v : Value} (given : supplied i j = some v) (lost : written i j ≠ some v)
  /-- Something is written where nothing was supplied. -/
  | padded {i j : Nat} {v : Value} (missing : supplied i j = none) (added : written i j = some v)
  /-- A column of the table is not written. -/
  | unset {j : Nat} {column : String} (given : columns[j]? = some column)
      (unset : targets[j]? ≠ some column)

theorem not_alters {supplied written : Nat → Nat → Option Value} {columns targets : List String}
    (h : ∀ i j, supplied i j = written i j) (hc : columns = targets) :
    ¬ Alters supplied written columns targets := by
  rintro (⟨given, lost⟩ | ⟨missing, added⟩ | ⟨given, unset⟩)
  · exact lost ((h _ _).symm.trans given)
  · cases missing.symm.trans ((h _ _).trans added)
  · exact unset (hc ▸ given)

theorem getElem?_take_self {α : Type} (l : List α) (n : Nat) : (l.take n)[n]? = none :=
  List.getElem?_eq_none (by rw [List.length_take]; exact Nat.min_le_left _ _)

namespace Reconcile

theorem fit_length (row : Row) : fit row.length row = row := by
  rw [fit, List.take_length, Nat.sub_self, List.replicate_zero, List.append_nil]

/-- Behind its values, a short row has nulls. -/
theorem getElem?_fit_of_le {row : Row} {arity j : Nat} (hrow : row.length ≤ j) (hj : j < arity) :
    (fit arity row)[j]? = some .null := by
  rw [fit, List.take_of_length_le (by omega), List.getElem?_append_right hrow,
    List.getElem?_replicate, if_pos (by omega)]

/-- Cropping alters what does not fit. -/
theorem alters_crop_iff {columns : List String} {values : List Value} :
    let keep := min columns.length values.length
    Alters (cell [values]) (cell [values.take keep]) columns (columns.take keep) ↔
      values.length ≠ columns.length := by
  intro keep
  constructor
  · intro h hn
    refine not_alters (fun i j => ?_) ?_ h
    · rw [List.take_of_length_le (by omega)]
    · rw [List.take_of_length_le (by omega)]
  · intro hn
    rcases Nat.lt_or_gt_of_ne hn with hlt | hlt
    · -- there are too few values, so a column is left out
      have hkeep : keep = values.length := Nat.min_eq_right (Nat.le_of_lt hlt)
      refine .unset (List.getElem?_eq_getElem hlt) ?_
      rw [hkeep, getElem?_take_self]
      exact nofun
    · have hkeep : keep = columns.length := Nat.min_eq_left (Nat.le_of_lt hlt)
      refine .dropped (i := 0) (List.getElem?_eq_getElem hlt) ?_
      rw [hkeep]
      change (values.take columns.length)[columns.length]? ≠ _
      rw [getElem?_take_self]
      exact nofun

/-- Fitting rows to the leading columns alters them unless they have the length of the table. -/
theorem alters_fit_iff {columns : List String} {rows : List Row} (hw : widest rows ≠ 0) :
    let targets := columns.take (widest rows)
    Alters (cell rows) (cell (rows.map (fit targets.length))) columns targets ↔
      ¬ ∀ row ∈ rows, row.length = columns.length := by
  intro targets
  have harity : targets.length = min (widest rows) columns.length := List.length_take
  constructor
  · intro h hfits
    obtain ⟨hrows, hn⟩ : (∀ row ∈ rows, row.length = targets.length) ∧
      columns.length ≤ targets.length := (Insert.forall_length_iff hw).2 hfits
    refine not_alters (fun i j => ?_) ?_ h
    · have hsame : rows.map (fit targets.length) = rows := by
        refine (List.map_congr_left fun row hrow => ?_).trans (List.map_id rows)
        rw [← hrows row hrow, fit_length]
        rfl
      rw [hsame]
    · exact (List.take_of_length_le (by omega)).symm
  · intro h
    simp only [not_forall] at h
    obtain ⟨row, hrow, hne⟩ := h
    obtain ⟨i, hi, rfl⟩ := List.getElem_of_mem hrow
    have hwidth : rows[i].length ≤ widest rows := widest_le_iff.1 (Nat.le_refl _) _ hrow
    have hsupplied (j : Nat) : cell rows i j = rows[i][j]? := by
      rw [cell, List.getElem?_eq_getElem hi]
      rfl
    have hwritten (j : Nat) : cell (rows.map (fit targets.length)) i j =
        (fit targets.length rows[i])[j]? := by
      rw [cell, List.getElem?_map, List.getElem?_eq_getElem hi]
      rfl
    rcases Nat.lt_or_gt_of_ne hne with hlt | hlt
    · by_cases hshort : rows[i].length < targets.length
      · -- the row is shorter than another one
        refine .padded (i := i) (j := rows[i].length) (v := .null) ?_ ?_
        · rw [hsupplied, List.getElem?_length]
        · rw [hwritten, getElem?_fit_of_le (Nat.le_refl _) hshort]
      · -- no row is longer, so a column is left out
        refine .unset (List.getElem?_eq_getElem (i := targets.length) (by omega)) ?_
        rw [List.getElem?_length]
        exact nofun
    · refine .dropped (i := i) (j := targets.length) (v := rows[i][targets.length]) ?_ ?_
      · rw [hsupplied, List.getElem?_eq_getElem]
      · have hnone : (fit targets.length rows[i])[targets.length]? = none :=
          List.getElem?_eq_none (Nat.le_of_eq (length_fit _ _))
        rw [hwritten, hnone]
        exact nofun

/-- Cutting columns to the length of the shortest one alters them if they differ in length. -/
theorem alters_zip_iff {columns : List (String × List Value)} :
    let names := columns.map Prod.fst
    let rows := (List.range (height columns)).map fun i => columns.map fun c => c.2.getD i .null
    Alters (fun i j => cell (columns.map Prod.snd) j i) (cell rows) names names ↔
      ¬ ∀ c ∈ columns, ∀ d ∈ columns, c.2.length = d.2.length := by
  intro names rows
  rw [← height_eq_tallest_iff]
  constructor
  · intro h hfits
    refine not_alters (fun i j => ?_) rfl h
    by_cases hi : i < height columns
    · -- a row that all columns reach
      have hrow : rows[i]? = some (columns.map fun c => c.2.getD i .null) := by
        simp [rows, hi]
      rw [cell, cell, hrow, List.getElem?_map]
      change _ = (columns.map fun c => c.2.getD i .null)[j]?
      rw [List.getElem?_map]
      cases hc : columns[j]? with
      | none => rfl
      | some c =>
        have hlt : i < c.2.length :=
          Nat.lt_of_lt_of_le hi (height_le (List.mem_of_getElem? hc))
        simp [hlt]
    · have hrow : rows[i]? = none := by
        simpa [rows] using hi
      rw [cell, cell, hrow, List.getElem?_map]
      cases hc : columns[j]? with
      | none => rfl
      | some c =>
        have hle : c.2.length ≤ tallest columns := le_tallest (List.mem_of_getElem? hc)
        have hnone : c.2[i]? = none := List.getElem?_eq_none (by omega)
        exact hnone
  · intro h
    -- the longest column has a value where the shortest one has none
    have hne : columns ≠ [] := by
      rintro rfl
      exact h rfl
    obtain ⟨c, hc, hlong⟩ := exists_length_eq_tallest hne
    have hlt : height columns < c.2.length := by
      have := height_le hc
      omega
    obtain ⟨j, hj, rfl⟩ := List.getElem_of_mem hc
    refine .dropped (i := height columns) (j := j) (v := columns[j].2[height columns]) ?_ ?_
    · simp [cell, hj, hlt]
    · simp [cell, rows]

end Reconcile

/-! ### Warnings and what is written -/

namespace Insert

/-- How an insert treats data that were supplied for the columns of a table and fit or do not. -/
structure WarnsOnce (table : String) (options : InsertOptions) (columns : List String)
    (supplied : Nat → Nat → Option Value) (fits : Prop) (x : Build Batch) : Prop where
  /-- Data that fit are not warned about. -/
  silent : ∀ b, x.result = .ok b → fits → x.warnings = []
  /-- About other data there is exactly one warning. -/
  once : ∀ b, x.result = .ok b → ¬ fits → ∃ e, x.warnings = [e]
  /-- Rows are written for leading columns of the table, behind the values of common tables.  They
  are not what was supplied if and only if there is a warning. -/
  altered : ∀ b, x.result = .ok b → ∃ w targets rows, lead options = .ok w ∧
    b = ⟨w.script ++ text table targets options, rows.map (w.values ++ ·)⟩ ∧
    targets <+: columns ∧ (∀ row ∈ rows, row.length = targets.length) ∧
    (Alters supplied (cell rows) columns targets ↔ ∃ e, x.warnings = [e])

theorem warnsOnce_of_warnsUnless {table : String} {options : InsertOptions} {columns : List String}
    {supplied : Nat → Nat → Option Value} {fits : Prop} {x : Build Batch}
    (hx : ∀ b, x.result = .ok b → x.WarnsUnless fits ∧ ∃ w targets rows, lead options = .ok w ∧
      b = ⟨w.script ++ text table targets options, rows.map (w.values ++ ·)⟩ ∧
      targets <+: columns ∧ (∀ row ∈ rows, row.length = targets.length) ∧
      (Alters supplied (cell rows) columns targets ↔ ¬ fits)) :
    WarnsOnce table options columns supplied fits x where
  silent := fun b hb => (hx b hb).1.1
  once := fun b hb => (hx b hb).1.2
  altered := by
    intro b hb
    obtain ⟨hw, w, targets, rows, hlead, hbatch, htargets, hrows, hiff⟩ := hx b hb
    refine ⟨w, targets, rows, hlead, hbatch, htargets, hrows, hiff.trans ⟨hw.2, ?_⟩⟩
    rintro ⟨e, he⟩ hfits
    rw [hw.1 hfits] at he
    cases he

/-- A batch that was built has the text of an insert for columns, of which there is one. -/
theorem exists_lead_of_batch {table : String} {columns : List String} {rows : List Row}
    {options : InsertOptions} {b : Batch}
    (h : (head table options.verb options.onConflict (some columns) columns.length >>= fun script =>
      CommonTable.beforeBatch options.tables ⟨script, rows⟩) = .ok b) :
    ∃ w, lead options = .ok w ∧
      b = ⟨w.script ++ text table columns options, rows.map (w.values ++ ·)⟩ := by
  have hne : columns.length ≠ 0 := by
    intro h0
    unfold head at h
    rw [if_pos h0] at h
    cases h
  rw [batch_of_ne_zero hne] at h
  obtain ⟨w, hw, rfl⟩ := map_eq_ok.1 h
  exact ⟨w, hw, rfl⟩

/-- The insert of a row as a batch. -/
theorem asBatch_row (table : String) (columns : Option (List String)) (arity : Nat)
    (values : List Value) (options : InsertOptions) :
    Fragment.asBatch <$> row table columns arity values options =
      (head table options.verb options.onConflict columns arity >>= fun script =>
        CommonTable.beforeBatch options.tables ⟨script, [values]⟩) := by
  simp only [row, CommonTable.before, CommonTable.beforeBatch, map_bind, map_pure]
  rfl

theorem warnsOnce_intoColumns (table : String) (options : InsertOptions) (columns : List String)
    (values : List Value) :
    WarnsOnce table options columns (cell [values]) (values.length = columns.length)
      (Fragment.asBatch <$> intoColumns table columns values options) := by
  refine warnsOnce_of_warnsUnless fun b hb => ⟨?_, ?_⟩
  · rw [Build.WarnsUnless, Build.warnings_map]
    exact warnsUnless_intoColumns table columns values options
  · rw [Build.result_map, result_intoColumns] at hb
    simp only at hb
    rw [asBatch_row] at hb
    obtain ⟨w, hw, hbatch⟩ := exists_lead_of_batch hb
    refine ⟨w, _, _, hw, hbatch, List.take_prefix _ _, fun row hrow => ?_,
      Reconcile.alters_crop_iff⟩
    rw [List.mem_singleton.1 hrow, List.length_take, List.length_take]
    omega

theorem warnsOnce_manyRows (table : String) (options : InsertOptions) (columns : List String)
    (rows : List Row) :
    WarnsOnce table options columns (cell rows) (∀ row ∈ rows, row.length = columns.length)
      (manyRows table columns rows options) := by
  refine warnsOnce_of_warnsUnless fun b hb => ⟨warnsUnless_manyRows hb, ?_⟩
  rw [result_manyRows] at hb
  simp only at hb
  split_ifs at hb with hw
  obtain ⟨w, hlead, hbatch⟩ := exists_lead_of_batch hb
  refine ⟨w, _, _, hlead, hbatch, List.take_prefix _ _, ?_, Reconcile.alters_fit_iff hw⟩
  exact List.forall_mem_map.2 fun row _ => Reconcile.length_fit _ row

theorem warnsOnce_manyColumns (table : String) (options : InsertOptions)
    (columns : List (String × List Value)) :
    WarnsOnce table options (columns.map Prod.fst) (fun i j => cell (columns.map Prod.snd) j i)
      (∀ c ∈ columns, ∀ d ∈ columns, c.2.length = d.2.length)
      (manyColumns table columns options) := by
  refine warnsOnce_of_warnsUnless fun b hb => ⟨warnsUnless_manyColumns table columns options, ?_⟩
  rw [result_manyColumns] at hb
  simp only at hb
  split_ifs at hb
  obtain ⟨w, hlead, hbatch⟩ := exists_lead_of_batch hb
  refine ⟨w, _, _, hlead, hbatch, List.prefix_refl _, ?_, Reconcile.alters_zip_iff⟩
  refine List.forall_mem_map.2 fun i _ => ?_
  rw [List.length_map, List.length_map]

/-- **An insert that loses or adds anything warns exactly once**, and one that does not does not
warn. -/
theorem warns_once (table : String) (options : InsertOptions) :
    (∀ columns values, WarnsOnce table options columns (cell [values])
      (values.length = columns.length)
      (Fragment.asBatch <$> intoColumns table columns values options)) ∧
    (∀ columns rows, WarnsOnce table options columns (cell rows)
      (∀ row ∈ rows, row.length = columns.length) (manyRows table columns rows options)) ∧
    ∀ columns, WarnsOnce table options (columns.map Prod.fst)
      (fun i j => cell (columns.map Prod.snd) j i)
      (∀ c ∈ columns, ∀ d ∈ columns, c.2.length = d.2.length)
      (manyColumns table columns options) :=
  ⟨warnsOnce_intoColumns table options, warnsOnce_manyRows table options,
    warnsOnce_manyColumns table options⟩

/-- Rows that are padded and leave a column unset as well have one warning. -/
example : (manyRows "t" ["a", "b", "c"] [[.integer 1], [.integer 2, .integer 3]] {}).warnings =
    [.rowsAdjusted "t" 2 1 0] := by
  decide

end Insert

end BoundSql
