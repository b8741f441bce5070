import BoundSql.Proofs.Alignment
import BoundSql.Proofs.Assertion

/-!
# What the check of placeholders guards against

Each text of a caller is checked on its own: it must have a value for each placeholder.  In a
statement it is followed by others, and if it ends inside a quote, these are scanned from there.
`Draft.guarded` is the main statement: with neutral names, what is built from texts that end outside
quotes is aligned, and any other statement is aligned if and only if what follows the first open
quote happens to have as many placeholders, scanned from inside that quote, as values
(`Segment.Recovers`).  One that is not aligned is no error: it is the result where assertions are
left out, and where they are checked it stops the builder (`Draft.Stopped`).
-/

namespace BoundSql

open Placeholder (Neutral)

/-! ### Open quotes -/

namespace Fragment

/-- The scanner ends outside quotes. -/
def Closed (f : Fragment) : Prop := Placeholder.after none f.script.toList = none

instance (f : Fragment) : Decidable f.Closed := inferInstanceAs (Decidable (_ = _))

theorem Closed.exact {f : Fragment} (h : f.Closed) (ha : f.isAligned = true) : f.Exact :=
  ⟨h, beq_iff_eq.1 ha⟩

/-- In front of anything else, an aligned fragment leaves the count to what follows, which is
scanned from the state that the fragment ends in. -/
theorem isAligned_append {f : Fragment} (h : f.isAligned = true) (g : Fragment) :
    (f ++ g).isAligned = true ↔
      Placeholder.count (Placeholder.after none f.script.toList) g.script.toList =
        g.values.length := by
  have hf : Placeholder.count none f.script.toList = f.values.length := beq_iff_eq.1 h
  rw [isAligned, beq_iff_eq, placeholders, Placeholder.countIn, script_append,
    String.toList_append, Placeholder.count_append, hf, values_append, List.length_append]
  omega

theorem Closed.isAligned_append {f : Fragment} (hf : f.Closed) (h : f.isAligned = true)
    (g : Fragment) : (f ++ g).isAligned = true ↔ g.isAligned = true := by
  rw [Fragment.isAligned_append h, hf, isAligned, beq_iff_eq]
  rfl

end Fragment

namespace Segment

/-- What follows the first piece that ends inside a quote has, scanned from there, as many
placeholders as values. -/
def Recovers (l : List Segment) : Prop :=
  ∀ pre f post close, l = pre ++ .piece f :: post → (∀ g, .piece g ∈ pre → g.Closed) →
    Placeholder.after none f.script.toList = some close →
    Placeholder.count (some close) (join post).script.toList = (join post).values.length

theorem recovers_nil : Recovers [] := by
  intro pre f post close h
  cases pre <;> cases h

/-- What ends outside quotes changes nothing for the rest. -/
theorem recovers_cons {s : Segment} (hs : ∀ f, s = .piece f → f.Closed) (l : List Segment) :
    Recovers (s :: l) ↔ Recovers l := by
  constructor
  · rintro h pre f post close rfl hpre
    refine h (s :: pre) f post close rfl fun g hg => ?_
    rcases List.mem_cons.1 hg with hg | hg
    · exact hs g hg.symm
    · exact hpre g hg
  · intro h pre f post close hl hpre hclose
    cases pre with
    | nil =>
      cases hl
      cases (hs f rfl).symm.trans hclose
    | cons t pre =>
      cases hl
      exact h pre f post close rfl (fun g hg => hpre g (List.mem_cons_of_mem _ hg)) hclose

/-- An open quote decides. -/
theorem recovers_open {f : Fragment} {close : Char}
    (hf : Placeholder.after none f.script.toList = some close) (l : List Segment) :
    Recovers (.piece f :: l) ↔
      Placeholder.count (some close) (join l).script.toList = (join l).values.length := by
  constructor
  · exact fun h => h [] f l close rfl (fun g hg => absurd hg List.not_mem_nil) hf
  · intro h pre g post close' hl hpre hclose
    cases pre with
    | nil =>
      cases hl
      cases hf.symm.trans hclose
      exact h
    | cons t pre =>
      -- the open quote is not the first one
      cases hl
      cases (hpre f List.mem_cons_self).symm.trans hf

/-- **Neutral texts and aligned pieces are aligned together** if and only if they recover from the
first open quote. -/
theorem isAligned_join {l : List Segment} (h : AllNeat (fun f => f.isAligned = true) l) :
    (join l).isAligned = true ↔ Recovers l := by
  induction l with
  | nil => exact iff_of_true rfl recovers_nil
  | cons s l ih =>
    obtain ⟨hs, hl⟩ := List.forall_mem_cons.1 h
    rw [join_cons]
    cases s with
    | text t =>
      have ht := Fragment.exact_text hs
      rw [recovers_cons (fun _ hf => by cases hf), ← ih hl]
      exact Fragment.Closed.isAligned_append ht.closed ht.isAligned _
    | piece f =>
      cases hf : Placeholder.after none f.script.toList with
      | none =>
        rw [recovers_cons (fun g hg => by cases hg; exact hf), ← ih hl]
        exact Fragment.Closed.isAligned_append hf hs _
      | some close =>
        rw [recovers_open hf, ← hf]
        exact Fragment.isAligned_append hs _

end Segment

/-! ### Checks -/

/-- An aligned fragment, or any error. -/
def GivesAligned : Except Error Fragment → Prop :=
  Outcome (fun _ => True) fun f => f.isAligned = true

/-- What passes a check is aligned. -/
theorem Fragment.givesAligned_checked (f : Fragment) (clause : String) :
    GivesAligned (f.checked clause) := by
  unfold checked
  split
  · rename_i h
    exact h
  · trivial

theorem Join.givesAligned_check (j : Join) : ∀ r ∈ j.check, GivesAligned r := by
  intro r hr
  obtain ⟨e, -, rfl⟩ := Option.map_eq_some_iff.1 hr
  exact e.render.givesAligned_checked "join"

theorem Where.givesAligned_check (w : Where) : GivesAligned w.check := by
  unfold check
  cases w.expr with
  | ok e => exact e.render.givesAligned_checked "where"
  | error e => trivial

theorem Assignment.givesAligned_right (a : Assigned) : GivesAligned (right a) := by
  cases a with
  | value v => exact (Fragment.exact_placeholder v).isAligned
  | expr e => exact e.render.givesAligned_checked "set"

theorem CommonTable.givesAligned_check (c : CommonTable) : GivesAligned c.check :=
  c.statement.givesAligned_checked "with"

namespace Draft

theorem givesAligned_checks (d : Draft) : ∀ r ∈ d.checks, GivesAligned r := by
  have htables (tables : List CommonTable) :
      ∀ r ∈ tables.map CommonTable.check, GivesAligned r :=
    List.forall_mem_map.2 fun c _ => c.givesAligned_check
  have hfilter (w : Option Where) : ∀ r ∈ w.toList.map Where.check, GivesAligned r :=
    List.forall_mem_map.2 fun w _ => w.givesAligned_check
  cases d with
  | select q =>
    refine List.forall_mem_append.2 ⟨List.forall_mem_append.2 ⟨?_, hfilter _⟩, htables _⟩
    intro r hr
    obtain ⟨j, -, hj⟩ := List.mem_filterMap.1 hr
    exact j.givesAligned_check r hj
  | update q =>
    refine List.forall_mem_append.2 ⟨List.forall_mem_append.2 ⟨?_, hfilter _⟩, htables _⟩
    exact List.forall_mem_map.2 fun a _ => Assignment.givesAligned_right a.assigned
  | delete q => exact List.forall_mem_append.2 ⟨hfilter _, htables _⟩
  | fastInsert | columnInsert | rowsInsert | boundInsert | listsInsert => exact htables _

/-- If what is checked ends outside quotes, the checks give exact fragments. -/
theorem outcome_exact {d : Draft} (h : ∀ f, .ok f ∈ d.checks → f.Closed) :
    ∀ r ∈ d.checks, Outcome (fun _ => True) Fragment.Exact r := by
  intro r hr
  cases r with
  | ok f => exact (h f hr).exact (d.givesAligned_checks _ hr)
  | error e => trivial

/-- How `d` is built if that gives `b`, which is laid out in `ls`: its texts and pieces are each
aligned, and each statement is aligned if and only if it recovers from its first open quote.  With
assertions left out, `b` is the result in any case; with assertions checked, a single statement that
is not aligned is not, and building it is stopped. -/
structure Guarded (d : Draft) (b : Batch) (ls : List (List Segment)) : Prop where
  layouts : d.layouts = .ok ls
  statements : b.statements = ls.map Segment.join
  pieces : ∀ l ∈ ls, ∀ f, .piece f ∈ l → f.isAligned = true
  aligned : ∀ l ∈ ls, (Segment.join l).isAligned = true ↔ Segment.Recovers l
  result : ∀ a, (d.asserted a).run.result = .ok (if d.Stopped a b then none else some b)

/-- If what is checked ends outside quotes, what is built is aligned. -/
theorem isAligned_of_closed {d : Draft} (hn : ∀ n ∈ d.names, Neutral n)
    (hc : ∀ f, .ok f ∈ d.checks → f.Closed) {b : Batch} (hb : d.build.result = .ok b) :
    ∀ s ∈ b.statements, s.isAligned = true := by
  intro s hs
  have hbuild := statements_build d
  rw [hb] at hbuild
  obtain ⟨ls, hls, hjoin⟩ := map_eq_ok.1 hbuild.symm
  -- aligned and closed is exact, and exact segments are exact together
  have hexact := outcome_layouts (fun _ _ => trivial) hn (outcome_exact hc) Placeholder.exact_list
  rw [hls] at hexact
  rw [← hjoin] at hs
  obtain ⟨l, hl, rfl⟩ := List.mem_map.1 hs
  exact (Segment.exact_join (Segment.allExact_of_allNeat (hexact l hl))).isAligned

/-- **What the check of placeholders guards against.**  An assertion adds no error.  With neutral
names, if what was checked ends outside quotes, every statement is aligned and no assertion fails;
otherwise a statement is aligned if and only if it recovers from the first open quote, and one that
is not is still no error: it is the result, or building it is stopped by the assertion. -/
theorem guarded (d : Draft) (hn : ∀ n ∈ d.names, Neutral n) :
    (∀ a e, (d.asserted a).run.result = .error e ↔ d.build.result = .error e) ∧
      ((∀ f, .ok f ∈ d.checks → f.Closed) → ∀ b, d.build.result = .ok b →
        (∀ a, (d.asserted a).run.result = .ok (some b)) ∧
          ∀ s ∈ b.statements, s.isAligned = true) ∧
      ∀ b, d.build.result = .ok b → ∃ ls, d.Guarded b ls := by
  have hresult (a : Assertions) : (d.asserted a).run.result =
      (fun b => if d.Stopped a b then none else some b) <$> d.build.result := by
    rw [run_asserted, Build.result_map]
  refine ⟨fun a e => ?_, fun hc b hb => ?_, fun b hb => ?_⟩
  · rw [hresult]
    exact map_eq_error
  · have haligned := isAligned_of_closed hn hc hb
    refine ⟨fun a => ?_, haligned⟩
    have hstopped : ¬ d.Stopped a b := fun ⟨_, _, s, hs, hf⟩ => by
      rw [haligned s hs] at hf
      cases hf
    rw [hresult, hb]
    exact congrArg Except.ok (if_neg hstopped)
  · have hbuild := statements_build d
    rw [hb] at hbuild
    obtain ⟨ls, hls, hjoin⟩ := map_eq_ok.1 hbuild.symm
    have hneat := outcome_layouts (fun _ _ => trivial) hn d.givesAligned_checks
      fun values => (Placeholder.exact_list values).isAligned
    rw [hls] at hneat
    exact ⟨ls,
      { layouts := hls
        statements := hjoin.symm
        pieces := fun l hl f hf => hneat l hl (.piece f) hf
        aligned := fun l hl => Segment.isAligned_join (hneat l hl)
        result := fun a => by rw [hresult, hb]; rfl }⟩

/-- A query that joins on a text of the caller and has a filter after it. -/
def joinedQuery (on : String) : Select :=
  { table := "a", columns := some .all, joins := [{ table := "b", on := some (.raw on []) }],
    filter := some (.mapping [("id", .eq (.integer 1))]) }

/-- With the quote closed, the statement is aligned. -/
theorem guarded_closed :
    let d : Draft := .select (joinedQuery "b.n = 'x'")
    let b : Batch :=
      ⟨"SELECT * FROM a INNER JOIN b ON b.n = 'x' WHERE (id = ?)", [[.integer 1]]⟩
    (∀ n ∈ d.names, Neutral n) ∧ d.build.result = .ok b ∧ (∀ f, .ok f ∈ d.checks → f.Closed) ∧
      (∀ a, (d.asserted a).run.result = .ok (some b)) ∧ ∀ s ∈ b.statements, s.isAligned = true := by
  intro d b
  have hn : ∀ n ∈ d.names, Neutral n := by decide
  have hb : d.build.result = .ok b := rfl
  have hchecks : d.checks = [.ok ⟨"b.n = 'x'", []⟩, .ok ⟨"id = ?", [.integer 1]⟩] := rfl
  have hc : ∀ f, .ok f ∈ d.checks → f.Closed := by
    intro f hf
    rw [hchecks] at hf
    simp only [List.mem_cons, Except.ok.injEq, List.not_mem_nil, or_false] at hf
    rcases hf with rfl | rfl <;> decide
  exact ⟨hn, hb, hc, (d.guarded hn).2.1 hc b hb⟩

/-- With the quote left open, the placeholder of the filter is in it, and its value has none.  That
is no error: with assertions left out, the statement is the result, and with assertions checked,
building it is stopped. -/
theorem unguarded_open :
    let q := joinedQuery "b.n = 'x"
    let s : Statement :=
      ⟨"SELECT * FROM a INNER JOIN b ON b.n = 'x WHERE (id = ?)", [.integer 1]⟩
    (∀ n ∈ (Draft.select q).names, Neutral n) ∧ s.isAligned = false ∧
      (q.statement.asserted .omitted).run.result = .ok (some s) ∧
      (q.statement.asserted .checked).run.result = .ok none := by
  refine ⟨by decide, by decide, rfl, rfl⟩

end Draft

end BoundSql
