import BoundSql.Query.Select
import BoundSql.Query.Update
import Mathlib.Data.List.Forall2

/-!
# Drafts

A `Draft` is the input of one of the builders of statements: a query, an update, a deletion, or one
of the five ways to insert.  `Draft.build` is what that builder makes of it.  A statement counts as
a batch with one row, so that what all builders have in common can be said once.
-/

namespace BoundSql

/-! ### Results of building -/

section

variable {ε α β : Type}

theorem bind_eq_ok {r : Except ε α} {f : α → Except ε β} {b : β} :
    r >>= f = .ok b ↔ ∃ a, r = .ok a ∧ f a = .ok b := by
  cases r with
  | ok a => exact ⟨fun h => ⟨a, rfl, h⟩, fun ⟨_, ha, h⟩ => by cases ha; exact h⟩
  | error e => exact ⟨nofun, nofun⟩

theorem map_eq_ok {r : Except ε α} {f : α → β} {b : β} :
    f <$> r = .ok b ↔ ∃ a, r = .ok a ∧ f a = b := by
  rw [map_eq_pure_bind, bind_eq_ok]
  exact exists_congr fun a => and_congr_right fun _ => ⟨Except.ok.inj, congrArg _⟩

theorem map_eq_error {r : Except ε α} {f : α → β} {e : ε} : f <$> r = .error e ↔ r = .error e := by
  cases r with
  | ok a => exact ⟨nofun, nofun⟩
  | error e' =>
    exact ⟨fun h => congrArg _ (Except.error.inj h), fun h => congrArg _ (Except.error.inj h)⟩

/-- A list succeeds if each of its elements does. -/
theorem mapM_eq_ok_iff {f : α → Except ε β} {as : List α} {bs : List β} :
    as.mapM f = .ok bs ↔ List.Forall₂ (fun a b => f a = .ok b) as bs := by
  induction as generalizing bs with
  | nil =>
    rw [List.mapM_nil, List.forall₂_nil_left_iff]
    exact ⟨fun h => (Except.ok.inj h).symm, fun h => h ▸ rfl⟩
  | cons a as ih =>
    simp only [List.mapM_cons, bind_eq_ok, List.forall₂_cons_left_iff, ih]
    constructor
    · rintro ⟨b, hb, bs, hbs, h⟩
      exact ⟨b, bs, hb, hbs, (Except.ok.inj h).symm⟩
    · rintro ⟨b, bs, hb, hbs, rfl⟩
      exact ⟨b, hb, bs, hbs, rfl⟩

/-- If an item can fail in one way only, so can items in order, and it does not matter which of them
it is. -/
theorem mapM_eq_error_iff {f : α → Except ε β} {p : α → Prop} {fault : ε} {l : List α}
    (h : ∀ a ∈ l, ∀ e, f a = .error e ↔ e = fault ∧ p a) {e : ε} :
    l.mapM f = .error e ↔ e = fault ∧ ∃ a ∈ l, p a := by
  induction l with
  | nil => simp [pure, Except.pure]
  | cons a l ih =>
    have hl := ih fun b hb => h b (List.mem_cons_of_mem a hb)
    have ha := h a List.mem_cons_self
    rw [List.mapM_cons, List.exists_mem_cons_iff]
    cases hfa : f a with
    | error e' =>
      -- the items after the first fault do not matter
      obtain ⟨rfl, hp⟩ := (ha e').1 hfa
      exact ⟨fun he => ⟨(Except.error.inj he).symm, .inl hp⟩, fun ⟨he, _⟩ => he ▸ rfl⟩
    | ok b =>
      have hna : ¬p a := by
        intro hp
        have := (ha fault).2 ⟨rfl, hp⟩
        rw [hfa] at this
        cases this
      rw [or_iff_right hna, ← hl]
      cases l.mapM f with
      | ok bs => exact ⟨nofun, nofun⟩
      | error e' => exact Iff.rfl

end

namespace Build

variable {α β : Type}

@[simp] theorem result_ofExcept (r : Except Error α) : (ofExcept r).result = r := rfl

/-- The result of one step after another does not depend on what they report. -/
@[simp] theorem result_bind (x : Build α) (f : α → Build β) :
    (x >>= f).result = x.result >>= fun a => (f a).result := by
  obtain ⟨es, r⟩ := x
  cases r <;> rfl

@[simp] theorem result_map (f : α → β) (x : Build α) : (f <$> x).result = f <$> x.result := by
  rw [map_eq_pure_bind, result_bind, map_eq_pure_bind]
  rfl

theorem map_ofExcept (f : α → β) (r : Except Error α) : f <$> ofExcept r = ofExcept (f <$> r) := by
  cases r <;> rfl

end Build

/-! ### Batches and statements -/

/-- A statement as a batch with one row. -/
def Fragment.asBatch (s : Statement) : Batch := ⟨s.script, [s.values]⟩

/-- What is run for the rows of a batch. -/
def Batch.statements (b : Batch) : List Statement := b.rows.map (Fragment.mk b.script)

@[simp] theorem Batch.statements_asBatch (s : Statement) : s.asBatch.statements = [s] := rfl

/-! ### Drafts -/

/-- The input of a builder of statements. -/
inductive Draft where
  | select (q : Select)
  | update (q : Update)
  | delete (q : Delete)
  /-- One row without column names. -/
  | fastInsert (table : String) (values : List Value) (options : InsertOptions)
  /-- One row for the columns of a table. -/
  | columnInsert (table : String) (columns : List String) (values : List Value)
    (options : InsertOptions)
  /-- One row of bindings. -/
  | boundInsert (table : String) (b : Bindings) (options : InsertOptions)
  /-- Rows for the leading columns of a table. -/
  | rowsInsert (table : String) (columns : List String) (rows : List Row)
    (options : InsertOptions)
  /-- Rows given by columns of values. -/
  | listsInsert (table : String) (columns : List (String × List Value))
    (options : InsertOptions)
deriving DecidableEq, Repr

namespace Draft

/-- What the builder makes of its input. -/
def build : Draft → Build Batch
  | select q => Fragment.asBatch <$> q.statement
  | update q => Fragment.asBatch <$> Build.ofExcept q.statement
  | delete q => Fragment.asBatch <$> Build.ofExcept q.statement
  | fastInsert table values options =>
    Fragment.asBatch <$> Build.ofExcept (Insert.fast table values options)
  | columnInsert table columns values options =>
    Fragment.asBatch <$> Insert.intoColumns table columns values options
  | boundInsert table b options =>
    Fragment.asBatch <$> Build.ofExcept (Insert.ofBindings table b options)
  | rowsInsert table columns rows options => Insert.manyRows table columns rows options
  | listsInsert table columns options => Insert.manyColumns table columns options

end Draft

/-- Steps whose results are then changed, one by one or all at once. -/
theorem mapM_map_result {m : Type → Type} [Monad m] [LawfulMonad m] {α β γ : Type}
    (g : β → γ) (f : α → m β) (l : List α) :
    (l.mapM fun a => g <$> f a) = List.map g <$> l.mapM f := by
  induction l with
  | nil => simp only [List.mapM_nil, map_pure, List.map_nil]
  | cons a l ih =>
    simp only [List.mapM_cons, ih, map_bind, bind_map_left, map_pure, List.map_cons]

end BoundSql
