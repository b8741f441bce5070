import BoundSql.Proofs.Column.Texts
import BoundSql.Query.Create

/-!
# Statements that create a table

A table can be created if it has a column and no column has an empty list in its specification
(`ColumnSpec.Hollow`).  The options decide what stands in front of the name of the table and what
stands behind the closing parenthesis; whether there is a statement, and what stands in the
parentheses, depends on the definition of the table alone.  `TableDef.creates` is the main
statement.
-/

namespace BoundSql

open Token (render_eq_error)

namespace ColumnSpec

/-- There is an empty list in the specification: it is one itself, or there is one in a token, at
any depth of lists and defaults. -/
def Hollow : ColumnSpec → Prop
  | one t => t.Hollow
  | many tokens => tokens = [] ∨ ∃ t ∈ tokens, t.Hollow

/-- Tokens given one by one have the same fault as a list of them. -/
theorem hollow_many {tokens : List Token} : (many tokens).Hollow ↔ (one (.list tokens)).Hollow := by
  constructor
  · rintro (rfl | ⟨t, ht, h⟩)
    · exact .empty
    · exact .item ht h
  · intro h
    cases h with
    | empty => exact .inl rfl
    | item ht h => exact .inr ⟨_, ht, h⟩

/-- A list of tokens has no definition exactly if there is an empty list in it. -/
theorem definition_many_eq_error {tokens : List Token} {e : Error} :
    (many tokens).definition = .error e ↔ e = .emptySequence ∧ (many tokens).Hollow := by
  by_cases h : tokens = []
  · subst h
    exact ⟨fun he => ⟨(Except.error.inj he).symm, .inl rfl⟩, fun he => he.1 ▸ rfl⟩
  · have hd : (many tokens).definition = columnDefinition tokens := if_neg (by simpa using h)
    rw [hd, columnDefinition_eq_error, Hollow, or_iff_right h]

/-- **A column has no definition exactly if there is an empty list in its specification**, and that
is the error, whichever way the specification is given. -/
theorem definition_eq_error {c : ColumnSpec} {e : Error} :
    c.definition = .error e ↔ e = .emptySequence ∧ c.Hollow := by
  cases c with
  | many tokens => exact definition_many_eq_error
  | one t =>
    cases t with
    | list tokens =>
      -- a list is ordered by rank as tokens given one by one are
      rw [← hollow_many]
      exact definition_many_eq_error
    | _ => exact render_eq_error

end ColumnSpec

namespace CreateOptions

/-- What stands in front of the name of the table. -/
def opening (options : CreateOptions) : String :=
  "CREATE " ++ options.temporary.sql ++ "TABLE " ++
    if options.ifNotExists then "IF NOT EXISTS " else ""

/-- What stands behind the closing parenthesis. -/
def closing (options : CreateOptions) : String :=
  if options.withoutRowid then " WITHOUT ROWID" else ""

end CreateOptions

namespace TableDef

/-- The line of a column is its name and its definition. -/
def IsColumnLine (column : String × ColumnSpec) (line : String) : Prop :=
  ∃ definition, column.2.definition = .ok definition ∧ line = column.1 ++ " " ++ definition

theorem columnLine_eq_map (column : String × ColumnSpec) :
    columnLine column = (column.1 ++ " " ++ ·) <$> column.2.definition :=
  (map_eq_pure_bind _ _).symm

theorem columnLine_eq_ok {column : String × ColumnSpec} {line : String} :
    columnLine column = .ok line ↔ IsColumnLine column line := by
  rw [columnLine_eq_map, map_eq_ok]
  exact exists_congr fun d => and_congr_right fun _ => eq_comm

theorem columnLine_eq_error {column : String × ColumnSpec} {e : Error} :
    columnLine column = .error e ↔ e = .emptySequence ∧ column.2.Hollow := by
  rw [columnLine_eq_map, map_eq_error, ColumnSpec.definition_eq_error]

theorem lines_eq_map (t : TableDef) :
    t.lines = (· ++ t.foreignKeys.map ForeignKey.line) <$> t.columns.mapM columnLine :=
  (map_eq_pure_bind _ _).symm

/-- **Lines fail for an empty list in a column only**, and it does not matter in which one. -/
theorem lines_eq_error {t : TableDef} {e : Error} :
    t.lines = .error e ↔ e = .emptySequence ∧ ∃ c ∈ t.columns, c.2.Hollow := by
  rw [lines_eq_map, map_eq_error, mapM_eq_error_iff fun c _ e => columnLine_eq_error]

/-- The lines of the columns come first, then those of the foreign keys. -/
theorem lines_eq_ok {t : TableDef} {lines : List String} :
    t.lines = .ok lines ↔ ∃ columns, List.Forall₂ IsColumnLine t.columns columns ∧
      columns ++ t.foreignKeys.map ForeignKey.line = lines := by
  simp only [lines_eq_map, map_eq_ok, mapM_eq_ok_iff, columnLine_eq_ok]

/-- The statement with these lines. -/
def creation (name : String) (lines : List String) (options : CreateOptions) : Statement :=
  .text (options.opening ++ name ++ (" (" ++ ", ".intercalate lines ++ ")") ++ options.closing)

theorem create_of_columns {t : TableDef} (h : t.columns ≠ []) (name : String)
    (options : CreateOptions) :
    t.create name options = (creation name · options) <$> t.lines := by
  rw [create, if_neg (by simpa using h), ← map_eq_pure_bind]
  simp only [creation, CreateOptions.opening, CreateOptions.closing, String.append_assoc]

/-- A statement that creates a table has no values. -/
theorem values_of_create {t : TableDef} {name : String} {options : CreateOptions} {s : Statement}
    (h : t.create name options = .ok s) : s.values = [] := by
  have hne : t.columns ≠ [] := by
    intro hnil
    rw [create, if_pos (by simpa using hnil)] at h
    cases h
  rw [create_of_columns hne] at h
  obtain ⟨lines, -, rfl⟩ := map_eq_ok.1 h
  rfl

/-- What creating a table gives, for all options at once. -/
structure Creates (t : TableDef) (name : String)
    (created : CreateOptions → Except Error Statement) : Prop where
  /-- There must be a column, whatever foreign keys there are. -/
  noData : ∀ options, created options = .error (.noData "create_table") ↔ t.columns = []
  /-- There must not be an empty list in a column, wherever it is. -/
  emptySequence : ∀ options, created options = .error .emptySequence ↔
    t.columns ≠ [] ∧ ∃ c ∈ t.columns, c.2.Hollow
  /-- There are no other errors. -/
  errors : ∀ options e, created options = .error e →
    e = .noData "create_table" ∨ e = .emptySequence
  /-- Otherwise there is a line for each column and then one for each foreign key, the same for all
  options, and there are no values. -/
  built : t.columns ≠ [] → (∀ c ∈ t.columns, ¬c.2.Hollow) → ∃ columns,
    List.Forall₂ IsColumnLine t.columns columns ∧ ∀ options, created options =
      .ok ⟨options.opening ++ name ++
        (" (" ++ ", ".intercalate (columns ++ t.foreignKeys.map ForeignKey.line) ++ ")") ++
        options.closing, []⟩

/-- **A table can be created exactly if each of its columns has a definition**, and the options only
change what stands around its name and its lines. -/
theorem creates (t : TableDef) (name : String) : Creates t name (t.create name) := by
  by_cases hne : t.columns = []
  · have hcreate (options : CreateOptions) :
        t.create name options = .error (.noData "create_table") := if_pos (by simpa using hne)
    refine ⟨fun options => ?_, fun options => ?_, fun options e he => ?_, fun h => absurd hne h⟩
    · simp only [hcreate, hne]
    · simp [hcreate, hne]
    · rw [hcreate] at he
      exact .inl (Except.error.inj he).symm
  · have herror (options : CreateOptions) {e : Error} : t.create name options = .error e ↔
        e = .emptySequence ∧ ∃ c ∈ t.columns, c.2.Hollow := by
      rw [create_of_columns hne, map_eq_error, lines_eq_error]
    refine ⟨fun options => ?_, fun options => ?_, fun options e he => ?_, fun _ hsolid => ?_⟩
    · simp [herror, hne]
    · rw [herror, eq_self_iff_true, true_and, and_iff_right hne]
    · exact .inr ((herror options).1 he).1
    · cases hlines : t.lines with
      | error e =>
        obtain ⟨-, c, hc, hhollow⟩ := lines_eq_error.1 hlines
        exact absurd hhollow (hsolid c hc)
      | ok lines =>
        obtain ⟨columns, hcolumns, rfl⟩ := lines_eq_ok.1 hlines
        refine ⟨columns, hcolumns, fun options => ?_⟩
        rw [create_of_columns hne, hlines]
        rfl

/-- An empty list is found at any depth, and in any column. -/
example : TableDef.create { columns := [("id", .one (.keyword .integer)),
    ("n", .many [.keyword .text, .default (.list [.keyword .null, .list []])])] } "t" {} =
      .error .emptySequence := by
  cbv

end TableDef

end BoundSql
