import BoundSql.Proofs.Layout
import BoundSql.Proofs.Mapping

/-!
# Faults of clauses

A clause is right or has a fault, and if it is right it has a text with values.  Both are read from
its own field: `fault` says what is wrong, if anything, and `written` what the clause is.  A builder
of clauses gives the first fault of what it is given, and else what is written (`unlessFaulty`), and
so do its steps one after the other (`unlessFaulty_bind`, `mapM_unlessFaulty`).
-/

namespace BoundSql

/-! ### The first fault -/

section

variable {α β : Type}

/-- What was to be built, or the first fault if there is one. -/
def unlessFaulty (faults : List Error) (a : α) : Except Error α :=
  match faults with
  | [] => .ok a
  | e :: _ => .error e

theorem unlessFaulty_eq_ok {faults : List Error} {a b : α} :
    unlessFaulty faults a = .ok b ↔ faults = [] ∧ a = b := by
  cases faults with
  | nil => simp [unlessFaulty]
  | cons e faults => simp [unlessFaulty]

theorem unlessFaulty_eq_error {faults : List Error} {a : α} {e : Error} :
    unlessFaulty faults a = .error e ↔ faults.head? = some e := by
  cases faults with
  | nil => simp [unlessFaulty]
  | cons e' faults => simp [unlessFaulty]

theorem map_unlessFaulty (f : α → β) (faults : List Error) (a : α) :
    f <$> unlessFaulty faults a = unlessFaulty faults (f a) := by
  cases faults <;> rfl

/-- Of two steps, the faults of the first one come first. -/
theorem unlessFaulty_bind {faults faults' : List Error} {a : α} {b : β} {f : α → Except Error β}
    (hf : f a = unlessFaulty faults' b) :
    unlessFaulty faults a >>= f = unlessFaulty (faults ++ faults') b := by
  cases faults with
  | nil => exact hf
  | cons e faults => rfl

/-- Of items in order, the first one with a fault decides. -/
theorem mapM_unlessFaulty {f : α → Except Error β} {fault : α → Option Error} {g : α → β}
    (hf : ∀ a, f a = unlessFaulty (fault a).toList (g a)) (l : List α) :
    l.mapM f = unlessFaulty (l.filterMap fault) (l.map g) := by
  induction l with
  | nil => rfl
  | cons a l ih =>
    have hrest : (l.mapM f >>= fun bs => pure (g a :: bs)) =
        unlessFaulty (l.filterMap fault) (g a :: l.map g) := by
      rw [ih, ← map_eq_pure_bind, map_unlessFaulty]
    have hcons : (unlessFaulty (fault a).toList (g a) >>= fun b =>
        l.mapM f >>= fun bs => pure (b :: bs)) =
        unlessFaulty ((fault a).toList ++ l.filterMap fault) (g a :: l.map g) :=
      unlessFaulty_bind hrest
    rw [List.mapM_cons, hf, List.map_cons]
    refine hcons.trans ?_
    cases h : fault a with
    | none => rw [List.filterMap_cons_none h, Option.toList_none, List.nil_append]
    | some e => rw [List.filterMap_cons_some h, Option.toList_some, List.singleton_append]

end

/-! ### Clauses -/

namespace Fragment

/-- The fault of a text that has not one value for each placeholder. -/
def fault (clause : String) (f : Fragment) : Option Error :=
  if f.isAligned then none
  else some (.clause clause (.misaligned f.placeholders f.values.length))

theorem fault_eq_none {clause : String} {f : Fragment} :
    f.fault clause = none ↔ f.isAligned = true := by
  simp [fault]

theorem checked_eq (clause : String) (f : Fragment) :
    f.checked clause = unlessFaulty (f.fault clause).toList f := by
  unfold checked fault
  split <;> rfl

theorem joined_nil (separator : String) : joined separator [] = empty := rfl

theorem joined_empty_cons (f : Fragment) (fs : List Fragment) :
    joined "" (f :: fs) = f ++ joined "" fs := by
  cases fs with
  | nil => exact (append_empty f).symm
  | cons g fs => simp only [joined, show text "" = empty from rfl, append_empty]

theorem joined_empty_append (fs gs : List Fragment) :
    joined "" (fs ++ gs) = joined "" fs ++ joined "" gs := by
  induction fs with
  | nil => exact (empty_append _).symm
  | cons f fs ih => rw [List.cons_append, joined_empty_cons, joined_empty_cons, ih, append_assoc]

end Fragment

namespace Columns

/-- A list of columns must not be empty. -/
def fault : Option Columns → Option Error
  | some (.many []) => some (.clause "select" .emptyColumnList)
  | _ => none

/-- The columns in order, all of them without a list. -/
def written : Option Columns → String
  | none => "*"
  | some .all => "*"
  | some (.one name) => name
  | some (.many names) => ", ".intercalate names

theorem fault_eq_none {columns : Option Columns} :
    fault columns = none ↔ columns ≠ some (.many []) := by
  unfold fault
  split <;> simp_all

theorem list_eq (columns : Option Columns) :
    Select.list columns = unlessFaulty (fault columns).toList (written columns) := by
  match columns with
  | none => rfl
  | some .all => rfl
  | some (.one name) => rfl
  | some (.many []) => rfl
  | some (.many (n :: ns)) => rfl

end Columns

namespace Join

/-- A join has a condition or common columns, not both, and a value for each placeholder of the
condition. -/
def fault (j : Join) : Option Error :=
  match j.on with
  | none => none
  | some e => if j.common = [] then e.render.fault "join" else some (.clause "join" .onAndUsing)

/-- A join without a fault. -/
structure Valid (j : Join) : Prop where
  one : ¬ (j.on.isSome ∧ j.common ≠ [])
  aligned : ∀ e ∈ j.on, e.render.isAligned = true

/-- What stands behind the joined table. -/
def condition (j : Join) : Fragment :=
  match j.on with
  | some e => .text " ON " ++ e.render
  | none => if j.common = [] then .empty
    else .text (" USING (" ++ ", ".intercalate j.common ++ ")")

/-- The joined table with its condition. -/
def written (j : Join) : Fragment :=
  .text (" " ++ j.method.sql ++ " " ++ j.table) ++ j.condition

/-- The values of the condition, if there is one. -/
def values (j : Join) : List Value :=
  match j.on with
  | some e => e.render.values
  | none => []

theorem values_written (j : Join) : j.written.values = j.values := by
  obtain ⟨table, method, on, common⟩ := j
  cases on with
  | none => cases common <;> rfl
  | some e => rfl

theorem fault_eq_none {j : Join} : j.fault = none ↔ j.Valid := by
  obtain ⟨table, method, on, common⟩ := j
  unfold fault
  cases on with
  | none => exact iff_of_true rfl ⟨by simp, nofun⟩
  | some e =>
    cases common with
    | nil =>
      simp only [if_true, Fragment.fault_eq_none]
      exact ⟨fun h => ⟨by simp, fun e' he' => by cases he'; exact h⟩, fun h => h.aligned e rfl⟩
    | cons c cs =>
      exact iff_of_false (by simp) fun h => h.one ⟨rfl, List.cons_ne_nil c cs⟩

theorem clause_eq_unlessFaulty (j : Join) : j.clause = unlessFaulty j.fault.toList j.written := by
  obtain ⟨table, method, on, common⟩ := j
  cases on with
  | none =>
    cases common with
    | nil => exact congrArg Except.ok (Fragment.append_empty _).symm
    | cons c cs => rfl
  | some e =>
    cases common with
    | nil =>
      simp only [clause, fault, if_true, Fragment.checked_eq, ← map_eq_pure_bind, map_unlessFaulty,
        written, condition, Fragment.append_assoc]
    | cons c cs => rfl

theorem clauses_eq_unlessFaulty (joins : List Join) :
    clauses joins = unlessFaulty (joins.filterMap fault) (.joined "" (joins.map written)) := by
  rw [clauses, mapM_unlessFaulty clause_eq_unlessFaulty, ← map_eq_pure_bind, map_unlessFaulty]

end Join

namespace Where

/-- A filter as it is written between parentheses. -/
def predicate : Where → Fragment
  | condition e => e.render
  | raw text => ⟨text, []⟩
  | mapping entries => conjunction entries

/-- A mapping must have an entry, and a value for each column. -/
def mappingFault (entries : List (String × Predicate)) : Option Error :=
  if entries = [] then some (.shape "where" .emptyMapping)
  else match entries.find? fun e => e.2.values.isEmpty with
    | some e => some (.clause "where" (.noValues e.1))
    | none => (conjunction entries).fault "where"

/-- A filter must ask for something, and have a value for each placeholder. -/
def fault : Where → Option Error
  | condition e => e.render.fault "where"
  | raw text =>
    if text.toList.all Text.isBlank then some (.clause "where" .emptyPredicate)
    else Fragment.fault "where" ⟨text, []⟩
  | mapping entries => mappingFault entries

/-- The filter asks for something. -/
def Asks : Where → Prop
  | condition _ => True
  | raw text => ¬ text.toList.all Text.isBlank = true
  | mapping entries => entries ≠ [] ∧ ∀ e ∈ entries, e.2.values ≠ []

/-- A filter without a fault. -/
structure Valid (w : Where) : Prop where
  asks : w.Asks
  aligned : w.predicate.isAligned = true

/-- The clause of a filter, nothing without one. -/
def written : Option Where → Fragment
  | none => .empty
  | some w => .text " WHERE (" ++ w.predicate ++ .text ")"

/-- The values of a filter, if there is one. -/
def values : Option Where → List Value
  | none => []
  | some w => w.predicate.values

theorem values_written (w : Option Where) : (written w).values = values w := by
  cases w with
  | none => rfl
  | some w => exact List.append_nil _

theorem mappingFault_of_asks {entries : List (String × Predicate)} (h : (mapping entries).Asks) :
    mappingFault entries = (conjunction entries).fault "where" := by
  have hfind : entries.find? (fun e => e.2.values.isEmpty) = none := by simpa using h.2
  rw [mappingFault, if_neg h.1, hfind]

/-- The first column without values is the fault of a mapping. -/
theorem mappingFault_of_values_eq_nil {pre : List (String × Predicate)}
    (hpre : ∀ e ∈ pre, e.2.values ≠ []) (column : String) {p : Predicate} (h : p.values = [])
    (post : List (String × Predicate)) :
    mappingFault (pre ++ (column, p) :: post) = some (.clause "where" (.noValues column)) := by
  have hfind : (pre ++ (column, p) :: post).find? (fun e => e.2.values.isEmpty) =
      some (column, p) :=
    List.find?_eq_some_iff_append.2 ⟨by simpa using h, pre, post, rfl, by simpa using hpre⟩
  rw [mappingFault, if_neg (by simp), hfind]

theorem fault_eq_none {w : Where} : w.fault = none ↔ w.Valid := by
  have hvalid : w.Valid ↔ w.Asks ∧ w.predicate.isAligned = true :=
    ⟨fun h => ⟨h.asks, h.aligned⟩, fun h => ⟨h.1, h.2⟩⟩
  rw [hvalid]
  cases w with
  | condition e => simp only [fault, Fragment.fault_eq_none, Asks, true_and, predicate]
  | raw text =>
    rw [fault]
    split_ifs with hb
    · exact iff_of_false nofun fun hw => hw.1 hb
    · exact Fragment.fault_eq_none.trans (and_iff_right hb).symm
  | mapping entries =>
    rw [fault]
    by_cases hne : entries = []
    · rw [mappingFault, if_pos hne]
      exact iff_of_false nofun fun hw => hw.1.1 hne
    · rcases values_or_first entries with hv | ⟨pre, column, p, post, rfl, hpre, hp⟩
      · have hasks : (mapping entries).Asks := ⟨hne, hv⟩
        rw [mappingFault_of_asks hasks]
        exact Fragment.fault_eq_none.trans (and_iff_right hasks).symm
      · rw [mappingFault_of_values_eq_nil hpre column hp post]
        exact iff_of_false nofun fun hw => hw.1.2 (column, p) (by simp) hp

/-- A filter as it is checked, before it is put in its clause. -/
theorem expr_bind_checked (w : Where) :
    (w.expr >>= fun e => e.render.checked "where") = unlessFaulty w.fault.toList w.predicate := by
  cases w with
  | condition e => exact Fragment.checked_eq "where" e.render
  | raw text =>
    rw [expr, fault]
    split_ifs with hb
    · rfl
    · exact Fragment.checked_eq "where" ⟨text, []⟩
  | mapping entries =>
    rw [fault]
    by_cases hne : entries = []
    · subst hne
      rfl
    · rcases values_or_first entries with hv | ⟨pre, column, p, post, rfl, hpre, hp⟩
      · obtain ⟨c, hc, hrender⟩ := exists_expr hne hv
        rw [hc, mappingFault_of_asks ⟨hne, hv⟩, predicate, ← hrender]
        exact Fragment.checked_eq "where" c.render
      · rw [expr_of_values_eq_nil hpre column hp post,
          mappingFault_of_values_eq_nil hpre column hp post]
        rfl

theorem clause_eq_unlessFaulty (w : Option Where) :
    clause w = unlessFaulty ((w.bind fault).toList) (written w) := by
  cases w with
  | none => rfl
  | some w =>
    have hclause : clause (some w) = (fun f => .text " WHERE " ++ f.parenthesized) <$>
        (w.expr >>= fun e => e.render.checked "where") := by
      rw [map_eq_pure_bind, bind_assoc]
      rfl
    rw [hclause, expr_bind_checked, map_unlessFaulty]
    have htext : Fragment.text " WHERE " ++ .text "(" = .text " WHERE (" := rfl
    rw [Fragment.parenthesized, ← Fragment.append_assoc, ← Fragment.append_assoc, htext]
    rfl

end Where

namespace OrderBy

/-- A position counts from one, and a list of terms must not be empty. -/
def fault : OrderBy → Option Error
  | position 0 => some (.clause "order_by" .positionZero)
  | columns [] => some (.clause "order_by" .emptyColumnList)
  | directions [] => some (.clause "order_by" .emptyColumnList)
  | _ => none

/-- An order without a fault. -/
structure Valid (o : OrderBy) : Prop where
  position : o ≠ .position 0
  columns : o ≠ .columns []
  directions : o ≠ .directions []

/-- The terms of an order. -/
def list : OrderBy → String
  | column name => name
  | position n => toString n
  | columns names => ", ".intercalate names
  | directions terms => ", ".intercalate (terms.map fun t => t.1 ++ " " ++ t.2.sql)

/-- The clause of an order, nothing without one. -/
def written : Option OrderBy → Fragment
  | none => .empty
  | some o => .text (" ORDER BY " ++ o.list)

theorem values_written (o : Option OrderBy) : (written o).values = [] := by
  cases o <;> rfl

theorem fault_eq_none {o : OrderBy} : o.fault = none ↔ o.Valid := by
  have hvalid : o.Valid ↔ o ≠ .position 0 ∧ o ≠ .columns [] ∧ o ≠ .directions [] :=
    ⟨fun h => ⟨h.1, h.2, h.3⟩, fun h => ⟨h.1, h.2.1, h.2.2⟩⟩
  rw [hvalid]
  unfold fault
  split <;> simp_all

theorem terms_eq (o : OrderBy) : o.terms = unlessFaulty o.fault.toList o.list := by
  match o with
  | column name => rfl
  | position 0 => rfl
  | position (n + 1) => rfl
  | columns [] => rfl
  | columns (n :: ns) => rfl
  | directions [] => rfl
  | directions (t :: ts) => rfl

theorem clause_eq_unlessFaulty (o : Option OrderBy) :
    clause o = unlessFaulty ((o.bind fault).toList) (written o) := by
  cases o with
  | none => rfl
  | some o =>
    rw [clause, terms_eq, ← map_eq_pure_bind, map_unlessFaulty]
    rfl

end OrderBy

namespace CommonTable

/-- A statement with a name must have a value for each placeholder. -/
def fault (c : CommonTable) : Option Error := c.statement.fault "with"

/-- The names in front of a statement, nothing without them. -/
def written (tables : List CommonTable) : Fragment :=
  if tables = [] then .empty
  else ⟨"WITH " ++ ", ".intercalate
    (tables.map fun c => c.name ++ " AS (" ++ c.statement.script ++ ")") ++ " ",
    tables.flatMap fun c => c.statement.values⟩

/-- The values of the statements with names. -/
def values (tables : List CommonTable) : List Value :=
  tables.flatMap fun c => c.statement.values

theorem values_written (tables : List CommonTable) : (written tables).values = values tables := by
  cases tables <;> rfl

theorem definition_eq_unlessFaulty (c : CommonTable) : c.definition =
    unlessFaulty c.fault.toList ⟨c.name ++ " AS (" ++ c.statement.script ++ ")",
      c.statement.values⟩ := by
  rw [definition, Fragment.checked_eq, ← map_eq_pure_bind, map_unlessFaulty]
  have hopen : c.name ++ " AS " ++ "(" = c.name ++ " AS (" := String.append_assoc
  congr 1
  refine Fragment.ext_iff.2 ⟨?_, List.append_nil _⟩
  rw [← hopen]
  simp only [Fragment.parenthesized, Fragment.script_append, Fragment.script_text,
    String.append_assoc]

theorem header_eq_unlessFaulty (tables : List CommonTable) :
    header tables = unlessFaulty (tables.filterMap fault) (written tables) := by
  rw [header, mapM_unlessFaulty definition_eq_unlessFaulty, ← map_eq_pure_bind, map_unlessFaulty,
    Fragment.joined_map]
  congr 1
  cases tables with
  | nil => rfl
  | cons c tables =>
    refine Fragment.ext_iff.2 ⟨rfl, ?_⟩
    exact List.append_nil _

end CommonTable

namespace Assignment

/-- What is assigned must have a value for each placeholder. -/
def fault (a : Assignment) : Option Error :=
  match a.assigned with
  | .value _ => none
  | .expr e => e.render.fault "set"

/-- There must be an assignment. -/
def faults (assignments : List Assignment) : List Error :=
  if assignments = [] then [.noData "update"] else assignments.filterMap fault

/-- What is assigned, as it is written. -/
def term (a : Assignment) : Fragment :=
  match a.assigned with
  | .value v => .placeholder v
  | .expr e => e.render

/-- The clause of assignments. -/
def written (assignments : List Assignment) : Fragment :=
  .text " SET " ++ .joined ", " (assignments.map fun a => .text (a.column ++ " = ") ++ a.term)

theorem values_written (assignments : List Assignment) :
    (written assignments).values = assignments.flatMap fun a => a.term.values := by
  simp only [written, Fragment.values_append, Fragment.values_text, Fragment.values_joined,
    List.nil_append, List.flatMap_map]

theorem fault_eq_none {a : Assignment} :
    a.fault = none ↔ ∀ e, a.assigned = .expr e → e.render.isAligned = true := by
  obtain ⟨column, assigned⟩ := a
  cases assigned with
  | value v => exact iff_of_true rfl nofun
  | expr e => simp [fault, Fragment.fault_eq_none]

theorem entry_eq_unlessFaulty (a : Assignment) :
    a.entry = unlessFaulty a.fault.toList (.text (a.column ++ " = ") ++ a.term) := by
  obtain ⟨column, assigned⟩ := a
  cases assigned with
  | value v => rfl
  | expr e =>
    rw [entry, ← map_eq_pure_bind]
    change _ <$> e.render.checked "set" = _
    rw [Fragment.checked_eq, map_unlessFaulty]
    rfl

theorem clause_eq_unlessFaulty (assignments : List Assignment) :
    clause assignments = unlessFaulty (faults assignments) (written assignments) := by
  cases assignments with
  | nil => rfl
  | cons a assignments =>
    have hne : (a :: assignments).isEmpty = false := rfl
    rw [clause, hne, mapM_unlessFaulty entry_eq_unlessFaulty, ← map_eq_pure_bind]
    exact map_unlessFaulty _ _ _

theorem faults_eq_nil {assignments : List Assignment} : faults assignments = [] ↔
    assignments ≠ [] ∧
      ∀ a ∈ assignments, ∀ e, a.assigned = .expr e → e.render.isAligned = true := by
  by_cases h : assignments = []
  · simp [faults, h]
  · simp [faults, h, List.filterMap_eq_nil_iff, fault_eq_none]

end Assignment

end BoundSql
