import BoundSql.Proofs.Draft
import Mathlib.Data.List.Forall2

/-!
# What a mapping asks for

A mapping compares each of its columns with each of the values of its predicate.  The comparisons of
one column are combined by `OR` and the columns by `AND`, from the left, and `Expr.render_foldl`
says how such a chain is written: operand after operand, in parentheses where one binds less
tightly.

`Where.mapping_means` is the main statement.  A mapping is refused if it has no entry or if one of
its columns has no value; otherwise its text is that of `Where.conjunction`, with parentheses around
several comparisons that stand next to another column, and with the values in order.  Only the
operator and the values of a predicate matter, so predicates that agree in both are interchangeable
in every statement.
-/

namespace BoundSql

/-! ### Chains of operands -/

namespace Fragment

/-- Two fragments that are joined already are joined with the rest. -/
theorem joined_append_cons (separator : String) (f g : Fragment) (rest : List Fragment) :
    joined separator ((f ++ text separator ++ g) :: rest) = joined separator (f :: g :: rest) := by
  cases rest with
  | nil => rfl
  | cons h rest => simp only [joined, append_assoc]

/-- Joining joins the texts and puts the values in a row. -/
theorem joined_map {α : Type} (separator : String) (script : α → String) (values : α → List Value)
    (l : List α) : joined separator (l.map fun a => ⟨script a, values a⟩) =
      ⟨separator.intercalate (l.map script), l.flatMap values⟩ := by
  rw [ext_iff, script_joined, values_joined, List.map_map, List.flatMap_map]
  exact ⟨rfl, rfl⟩

end Fragment

namespace Expr

/-- **Operands that are combined from the left are written one after the other.**  An operator that
needs no parentheses around its own results gets them around the given operands only. -/
theorem render_foldl (combine : Expr → Expr → Expr) (op : String) (breaks : Shape → Bool)
    (hrender : ∀ a b, (combine a b).render =
      binary op (grouped (breaks a.shape) a.render) (grouped (breaks b.shape) b.render))
    (hshape : ∀ a b, breaks (combine a b).shape = false) (e a : Expr) (es : List Expr) :
    ((a :: es).foldl combine e).render = Fragment.joined (" " ++ op ++ " ")
      ((e :: a :: es).map fun x => grouped (breaks x.shape) x.render) := by
  induction es generalizing e a with
  | nil =>
    rw [List.foldl_cons, List.foldl_nil, hrender]
    rfl
  | cons b es ih =>
    -- the first two operands are one operand without parentheses
    have hfirst : grouped (breaks (combine e a).shape) (combine e a).render =
        grouped (breaks e.shape) e.render ++ Fragment.text (" " ++ op ++ " ") ++
          grouped (breaks a.shape) a.render := by
      rw [hshape, hrender]
      rfl
    rw [List.foldl_cons, ih, List.map_cons, hfirst, Fragment.joined_append_cons]
    rfl

/-- The shape of a chain is that of its operator. -/
theorem shape_foldl (combine : Expr → Expr → Expr) {shape : Shape}
    (h : ∀ a b, (combine a b).shape = shape) (e a : Expr) (es : List Expr) :
    ((a :: es).foldl combine e).shape = shape := by
  induction es generalizing e a with
  | nil => exact h e a
  | cons b es ih => exact ih (combine e a) b

/-- Comparisons that are combined by `OR` need no parentheses. -/
theorem render_any {e : Expr} {es : List Expr} (h : ∀ a ∈ e :: es, a.shape = .comparison)
    {d : Expr} (hd : any (e :: es) = some d) :
    d.render = Fragment.joined " OR " ((e :: es).map render) := by
  cases hd
  cases es with
  | nil => rfl
  | cons a es =>
    rw [render_foldl .or "OR" Shape.breaksOr (fun _ _ => rfl) fun _ _ => rfl]
    have hplain : ∀ x ∈ e :: a :: es, grouped x.shape.breaksOr x.render = x.render := by
      intro x hx
      rw [h x hx]
      rfl
    rw [List.map_congr_left hplain]
    rfl

end Expr

/-! ### Entries -/

namespace Where

/-- The comparisons of an entry, one for each value. -/
def comparisons (e : String × Predicate) : String :=
  " OR ".intercalate (List.replicate e.2.values.length (e.1 ++ " " ++ e.2.operator.sql ++ " ?"))

/-- An entry of a mapping with so many entries: several comparisons are in parentheses if there are
other entries. -/
def term (entries : Nat) (e : String × Predicate) : String :=
  if 2 ≤ entries ∧ 2 ≤ e.2.values.length then "(" ++ comparisons e ++ ")" else comparisons e

/-- The entries one after the other, with their values. -/
def conjunction (entries : List (String × Predicate)) : Fragment :=
  ⟨" AND ".intercalate (entries.map (term entries.length)), entries.flatMap fun e => e.2.values⟩

/-- How an entry is written as an expression. -/
structure Writes (e : String × Predicate) (c : Expr) : Prop where
  render : c.render = ⟨comparisons e, e.2.values⟩
  shape : c.shape = if 2 ≤ e.2.values.length then .or else .comparison

theorem render_comparison (column : String) (op : Operator) (v : Value) :
    (Expr.compare op (.column column) (.bound v)).render =
      ⟨column ++ " " ++ op.sql ++ " ?", [v]⟩ := by
  have hscript : (Expr.compare op (.column column) (.bound v)).render.script =
      column ++ (" " ++ op.sql ++ " ") ++ "?" := rfl
  refine Fragment.ext_iff.2 ⟨?_, rfl⟩
  rw [hscript]
  simp only [String.append_assoc]
  rfl

/-- An entry with values is the comparisons with them. -/
theorem exists_entry {e : String × Predicate} (h : e.2.values ≠ []) :
    ∃ c, entry e = .ok c ∧ Writes e c := by
  let comparison v := Expr.compare e.2.operator (.column e.1) (.bound v)
  obtain ⟨v, vs, hvs⟩ := List.exists_cons_of_ne_nil h
  have hentry : entry e = .ok ((vs.map comparison).foldl .or (comparison v)) := by
    rw [entry, hvs]
    rfl
  refine ⟨_, hentry, ?_, ?_⟩
  · have hshape : ∀ a ∈ comparison v :: vs.map comparison, a.shape = .comparison := by
      rw [← List.map_cons, List.forall_mem_map]
      exact fun _ _ => rfl
    have hrender : Expr.render ∘ comparison =
        fun w => ⟨e.1 ++ " " ++ e.2.operator.sql ++ " ?", [w]⟩ :=
      funext fun w => render_comparison e.1 e.2.operator w
    rw [Expr.render_any hshape rfl, ← List.map_cons, List.map_map, hrender, Fragment.joined_map,
      List.map_const', List.flatMap_singleton', ← hvs]
    rfl
  · rw [hvs]
    cases vs with
    | nil => rfl
    | cons w vs =>
      rw [if_pos (by simp)]
      exact Expr.shape_foldl .or (fun _ _ => rfl) _ _ _

theorem entry_of_values_eq_nil {e : String × Predicate} (h : e.2.values = []) :
    entry e = .error (.clause "where" (.noValues e.1)) := by
  unfold entry
  rw [h]
  rfl

/-- What an entry is written as depends on the operator and the values of its predicate only. -/
theorem entry_congr (column : String) {p p' : Predicate} (ho : p.operator = p'.operator)
    (hv : p.values = p'.values) : entry (column, p) = entry (column, p') := by
  unfold entry
  rw [ho, hv]

/-! ### Mappings -/

/-- Entries with values are all written. -/
theorem exists_terms {entries : List (String × Predicate)} (h : ∀ e ∈ entries, e.2.values ≠ []) :
    ∃ terms, entries.mapM entry = .ok terms ∧ List.Forall₂ Writes entries terms := by
  induction entries with
  | nil => exact ⟨[], rfl, .nil⟩
  | cons e entries ih =>
    obtain ⟨c, hc, hw⟩ := exists_entry (h e List.mem_cons_self)
    obtain ⟨terms, ht, hws⟩ := ih fun e' he' => h e' (List.mem_cons_of_mem e he')
    refine ⟨c :: terms, ?_, .cons hw hws⟩
    rw [List.mapM_cons, hc, ht]
    rfl

/-- One of several entries is written as an operand of `AND`. -/
theorem Writes.grouped {e : String × Predicate} {c : Expr} (h : Writes e c) {entries : Nat}
    (hn : 2 ≤ entries) :
    Expr.grouped c.shape.breaksAnd c.render = ⟨term entries e, e.2.values⟩ := by
  rw [h.render, h.shape, term]
  by_cases hv : 2 ≤ e.2.values.length
  · rw [if_pos hv, if_pos ⟨hn, hv⟩, Fragment.ext_iff]
    exact ⟨rfl, List.append_nil _⟩
  · rw [if_neg hv, if_neg fun h => hv h.2]
    rfl

/-- All entries together are the conjunction of the mapping. -/
theorem render_all {entries : List (String × Predicate)} {terms : List Expr}
    (h : List.Forall₂ Writes entries terms) {c : Expr} (hc : Expr.all terms = some c) :
    c.render = conjunction entries := by
  match entries, terms, h with
  | [], [], .nil => cases hc
  | [e], [d], .cons hd .nil =>
    -- a single entry stands alone
    cases hc
    have hscript : " AND ".intercalate [term 1 e] = comparisons e := by
      rw [String.intercalate_singleton, term, if_neg (by omega)]
    rw [List.foldl_nil, hd.render, Fragment.ext_iff]
    exact ⟨hscript.symm, (List.append_nil _).symm⟩
  | e :: e' :: entries, d :: d' :: terms, h =>
    cases hc
    have hn : 2 ≤ (e :: e' :: entries).length := by simp
    have hterms : (d :: d' :: terms).map (fun c => Expr.grouped c.shape.breaksAnd c.render) =
        (e :: e' :: entries).map fun e => ⟨term (entries.length + 2) e, e.2.values⟩ := by
      rw [← List.forall₂_eq_eq_eq, List.forall₂_map_left_iff, List.forall₂_map_right_iff]
      exact h.flip.imp fun _ _ hw => hw.grouped hn
    rw [Expr.render_foldl .and "AND" Expr.Shape.breaksAnd (fun _ _ => rfl) fun _ _ => rfl, hterms,
      Fragment.joined_map]
    rfl

/-- Every entry has a value, or there is a first one without. -/
theorem values_or_first (entries : List (String × Predicate)) :
    (∀ e ∈ entries, e.2.values ≠ []) ∨ ∃ pre column p post,
      entries = pre ++ (column, p) :: post ∧ (∀ e ∈ pre, e.2.values ≠ []) ∧ p.values = [] := by
  cases h : entries.find? fun e => e.2.values.isEmpty with
  | none => exact .inl (by simpa using h)
  | some e =>
    obtain ⟨he, pre, post, rfl, hpre⟩ := List.find?_eq_some_iff_append.1 h
    exact .inr ⟨pre, e.1, e.2, post, rfl, by simpa using hpre, by simpa using he⟩

theorem exists_expr {entries : List (String × Predicate)} (hne : entries ≠ [])
    (h : ∀ e ∈ entries, e.2.values ≠ []) :
    ∃ c, expr (.mapping entries) = .ok c ∧ c.render = conjunction entries := by
  obtain ⟨terms, ht, hw⟩ := exists_terms h
  cases hall : Expr.all terms with
  | some c =>
    refine ⟨c, ?_, render_all hw hall⟩
    rw [expr, bind_eq_ok]
    exact ⟨terms, ht, by rw [hall]⟩
  | none =>
    -- without a term there is no entry
    cases hw with
    | nil => exact absurd rfl hne
    | cons => cases hall

/-- The first column without values is refused, whatever follows it. -/
theorem expr_of_values_eq_nil {pre : List (String × Predicate)} (hpre : ∀ e ∈ pre, e.2.values ≠ [])
    (column : String) {p : Predicate} (h : p.values = []) (post : List (String × Predicate)) :
    expr (.mapping (pre ++ (column, p) :: post)) = .error (.clause "where" (.noValues column)) := by
  obtain ⟨terms, ht, -⟩ := exists_terms hpre
  have he : entry (column, p) = .error (.clause "where" (.noValues column)) :=
    entry_of_values_eq_nil h
  rw [expr, List.mapM_append, List.mapM_cons, ht, he]
  rfl

/-- What a mapping gives, read from its entries. -/
structure Means (entries : List (String × Predicate)) (r : Except Error Expr) : Prop where
  /-- There must be an entry, and every entry must have a value. -/
  built : (∃ c, r = .ok c) ↔ entries ≠ [] ∧ ∀ e ∈ entries, e.2.values ≠ []
  /-- The entries stand in order, joined by `AND`, and those of several values are joined by `OR`;
  the values are those of the entries. -/
  written : ∀ c, r = .ok c →
    c.render.script = " AND ".intercalate (entries.map (term entries.length)) ∧
      c.render.values = entries.flatMap fun e => e.2.values
  /-- A mapping without entries has no shape. -/
  empty : r = .error (.shape "where" .emptyMapping) ↔ entries = []
  /-- Of columns without values, the first one is named. -/
  noValues : ∀ column, r = .error (.clause "where" (.noValues column)) ↔ ∃ pre p post,
    entries = pre ++ (column, p) :: post ∧ (∀ e ∈ pre, e.2.values ≠ []) ∧ p.values = []
  /-- There are no other errors. -/
  errors : ∀ e, r = .error e → e = .shape "where" .emptyMapping ∨
    ∃ column, e = .clause "where" (.noValues column)

theorem means_expr (entries : List (String × Predicate)) :
    Means entries (expr (.mapping entries)) := by
  by_cases hne : entries = []
  · subst hne
    have hr : expr (.mapping []) = .error (.shape "where" .emptyMapping) := rfl
    refine ⟨?_, ?_, ?_, ?_, ?_⟩ <;> simp [hr]
  · rcases values_or_first entries with hv | ⟨pre, column, p, post, rfl, hpre, hp⟩
    · obtain ⟨c, hc, hrender⟩ := exists_expr hne hv
      refine ⟨iff_of_true ⟨c, hc⟩ ⟨hne, hv⟩, ?_, ?_, ?_, ?_⟩
      · intro d hd
        cases hc.symm.trans hd
        rw [hrender]
        exact ⟨rfl, rfl⟩
      · simp [hc, hne]
      · intro column
        rw [hc]
        refine iff_of_false nofun ?_
        rintro ⟨pre, p, post, rfl, -, hp⟩
        exact hv (column, p) (by simp) hp
      · intro e he
        cases hc.symm.trans he
    · have hr := expr_of_values_eq_nil hpre column hp post
      refine ⟨?_, ?_, ?_, ?_, ?_⟩
      · rw [hr]
        exact iff_of_false nofun fun h => h.2 (column, p) (by simp) hp
      · intro d hd
        cases hr.symm.trans hd
      · simp [hr]
      · intro column'
        constructor
        · intro h
          cases hr.symm.trans h
          exact ⟨pre, p, post, rfl, hpre, hp⟩
        · rintro ⟨pre', p', post', heq, hpre', hp'⟩
          rw [heq, expr_of_values_eq_nil hpre' column' hp' post']
      · intro e he
        cases hr.symm.trans he
        exact .inr ⟨column, rfl⟩

/-! ### Predicates that mean the same -/

/-- Filters that no statement tells apart. -/
structure Interchangeable (w w' : Where) : Prop where
  expr : w.expr = w'.expr
  clause : clause (some w) = clause (some w')
  select : ∀ q : Select,
    { q with filter := some w }.statement = { q with filter := some w' }.statement
  update : ∀ q : Update,
    { q with filter := some w }.statement = { q with filter := some w' }.statement
  delete : ∀ q : Delete,
    { q with filter := some w }.statement = { q with filter := some w' }.statement

theorem interchangeable_of_expr {w w' : Where} (h : w.expr = w'.expr) : Interchangeable w w' := by
  have hc : clause (some w) = clause (some w') := by rw [clause, clause, h]
  refine ⟨h, hc, fun q => ?_, fun q => ?_, fun q => ?_⟩
  · rw [Select.statement, Select.statement, hc]
  · rw [Update.statement, Update.statement, hc]
  · rw [Delete.statement, Delete.statement, hc]

end Where

namespace Predicate

/-- Predicates that no statement tells apart, wherever they stand in a mapping. -/
def Interchangeable (p p' : Predicate) : Prop :=
  ∀ pre column post, Where.Interchangeable (.mapping (pre ++ (column, p) :: post))
    (.mapping (pre ++ (column, p') :: post))

theorem interchangeable_of_eq {p p' : Predicate} (ho : p.operator = p'.operator)
    (hv : p.values = p'.values) : p.Interchangeable p' := by
  intro pre column post
  refine Where.interchangeable_of_expr ?_
  rw [Where.expr, Where.expr, List.mapM_append, List.mapM_append, List.mapM_cons, List.mapM_cons,
    Where.entry_congr column ho hv]

/-- The operator that a list begins with, if it begins with one. -/
def leading? : List Value → Option Operator
  | .text s :: _ => Operator.parse? s
  | _ => none

/-- A list that begins with no operator asks for one of its values. -/
theorem operator_ofValues {vs : List Value} (h : leading? vs = none) :
    (ofValues vs).operator = .eq ∧ (ofValues vs).values = vs := by
  unfold ofValues
  split
  · rename_i s rest
    have hs : Operator.parse? s = none := h
    rw [hs]
    cases rest with
    | nil => exact ⟨rfl, rfl⟩
    | cons v rest => exact ⟨rfl, rfl⟩
  · exact ⟨rfl, rfl⟩
  · exact ⟨rfl, rfl⟩

end Predicate

/-- **A mapping is an `AND` of `OR`s.**  What it gives is read from its entries, and of a predicate
only the operator and the values matter: one value can be asked for in three ways, several values in
two, and it does not show which of them was chosen for a list that begins with no operator. -/
theorem Where.mapping_means (entries : List (String × Predicate)) :
    Means entries (expr (.mapping entries)) ∧
      (∀ v, Predicate.Interchangeable (.eq v) (.any [v]) ∧
        Predicate.Interchangeable (.eq v) (.op .eq [v])) ∧
      (∀ vs, Predicate.Interchangeable (.any vs) (.op .eq vs)) ∧
      ∀ vs, Predicate.leading? vs = none → Predicate.Interchangeable (.ofValues vs) (.any vs) ∧
        ∀ v, vs = [v] → Predicate.Interchangeable (.ofValues vs) (.eq v) := by
  refine ⟨means_expr entries, fun v => ⟨?_, ?_⟩, fun vs => ?_, fun vs h => ?_⟩
  · exact Predicate.interchangeable_of_eq rfl rfl
  · exact Predicate.interchangeable_of_eq rfl rfl
  · exact Predicate.interchangeable_of_eq rfl rfl
  · obtain ⟨ho, hv⟩ := Predicate.operator_ofValues h
    refine ⟨Predicate.interchangeable_of_eq ho hv, ?_⟩
    rintro v rfl
    exact Predicate.interchangeable_of_eq ho hv

/-- Two values for one column are in parentheses next to another column. -/
example : Expr.render <$> Where.expr (.mapping [("a", .eq .null),
    ("b", .ofValues [.text ">", .integer 1, .integer 2])]) =
      .ok ⟨"a = ? AND (b > ? OR b > ?)", [.null, .integer 1, .integer 2]⟩ := by
  decide

end BoundSql
