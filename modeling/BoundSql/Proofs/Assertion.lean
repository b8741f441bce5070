import BoundSql.Proofs.Draft
import BoundSql.Proofs.Operation

/-!
# With and without assertions

If assertions are left out, building and calling a database are what they are without them
(`Draft.asserted_omitted`, `Database.call_omitted`), so what is proved of `Draft.build` and of
`Database.perform` holds of a program built for release.  If assertions are checked, nothing
misaligned is run: a call is stopped exactly where it would otherwise run something misaligned or
give back a statement that is, and apart from that it is the same (`Database.call_checked`).
-/

namespace BoundSql

section

variable {m : Type → Type} [Monad m] [LawfulMonad m] {α β : Type}

/-- What cannot be stopped goes on. -/
theorem run_lift_bind (x : m α) (f : α → OptionT m β) :
    (OptionT.lift x >>= f).run = x >>= fun a => (f a).run := by
  simp only [OptionT.run_bind, OptionT.run_lift, Option.elimM, bind_assoc, pure_bind,
    Option.elim_some]

theorem lift_bind_lift (x : m α) (f : α → m β) :
    (OptionT.lift x >>= fun a => OptionT.lift (f a)) = OptionT.lift (x >>= f) := by
  apply OptionT.ext
  simp only [run_lift_bind, OptionT.run_lift, bind_assoc]

theorem lift_pure (a : α) : OptionT.lift (pure a : m α) = pure a :=
  OptionT.ext (pure_bind a _)

theorem mapM_lift (f : α → m β) (l : List α) :
    (l.mapM fun a => OptionT.lift (f a)) = OptionT.lift (l.mapM f) := by
  induction l with
  | nil => exact (lift_pure []).symm
  | cons a l ih =>
    simp only [List.mapM_cons, ih, ← lift_bind_lift, lift_pure]

theorem Assertions.omitted_bind (holds : Bool) (f : Unit → OptionT m α) :
    omitted.assert holds >>= f = f () := pure_bind () f

theorem Assertions.checked_bind (holds : Bool) (f : Unit → OptionT m α) :
    checked.assert holds >>= f = if holds then f () else failure := by
  cases holds with
  | true => exact pure_bind () f
  | false =>
    apply OptionT.ext
    simp only [assert, Bool.false_eq_true, if_false, OptionT.run_bind, OptionT.run_failure,
      Option.elimM, pure_bind, Option.elim_none]

end

/-! ### Builders -/

/-- With assertions checked, a statement that is not aligned is not kept. -/
theorem Build.run_asserted (a : Assertions) (x : Build Statement) :
    (x.asserted a).run =
      (fun s => if a = .checked ∧ s.isAligned = false then none else some s) <$> x := by
  rw [map_eq_pure_bind]
  refine (run_lift_bind x _).trans (bind_congr fun s => ?_)
  cases a with
  | omitted => rfl
  | checked =>
    rw [Assertions.checked_bind]
    cases s.isAligned <;> rfl

namespace Draft

/-- The statement that the builder makes, if it makes a single one. -/
def single? : Draft → Option (Build Statement)
  | select q => some q.statement
  | update q => some (Build.ofExcept q.statement)
  | delete q => some (Build.ofExcept q.statement)
  | fastInsert table values options => some (Build.ofExcept (Insert.fast table values options))
  | columnInsert table columns values options =>
    some (Insert.intoColumns table columns values options)
  | boundInsert table b options => some (Build.ofExcept (Insert.ofBindings table b options))
  | rowsInsert _ _ _ _ | listsInsert _ _ _ => none

theorem build_eq_of_single? {d : Draft} {x : Build Statement} (h : d.single? = some x) :
    d.build = Fragment.asBatch <$> x := by
  cases d <;> cases h <;> rfl

/-- What the builder makes of its input, with assertions.  A batch is not asserted to be aligned
until it is run. -/
def asserted (a : Assertions) (d : Draft) : OptionT Build Batch :=
  match d.single? with
  | some x => Fragment.asBatch <$> x.asserted a
  | none => OptionT.lift d.build

/-- The builder is stopped by the assertion if it makes `b`. -/
def Stopped (d : Draft) (a : Assertions) (b : Batch) : Prop :=
  a = .checked ∧ d.single?.isSome = true ∧ ∃ s ∈ b.statements, s.isAligned = false

instance (d : Draft) (a : Assertions) (b : Batch) : Decidable (d.Stopped a b) :=
  inferInstanceAs (Decidable (_ ∧ _ ∧ _))

theorem run_asserted (a : Assertions) (d : Draft) :
    (d.asserted a).run = (fun b => if d.Stopped a b then none else some b) <$> d.build := by
  cases h : d.single? with
  | none =>
    have hstopped (b : Batch) : ¬ d.Stopped a b := fun hb => by
      rw [Stopped, h] at hb
      cases hb.2.1
    simp only [asserted, h, hstopped, if_false]
    exact (map_eq_pure_bind _ _).symm
  | some x =>
    have hstopped (s : Statement) :
        d.Stopped a s.asBatch ↔ a = .checked ∧ s.isAligned = false := by
      rw [Stopped, h, Batch.statements_asBatch]
      simp only [Option.isSome_some, true_and, List.mem_singleton, exists_eq_left]
    simp only [asserted, h, build_eq_of_single? h, OptionT.run_map, Build.run_asserted,
      Functor.map_map, hstopped, apply_ite (Option.map Fragment.asBatch), Option.map_none,
      Option.map_some]

/-- **Assertions that are left out change nothing** of a builder. -/
theorem asserted_omitted (d : Draft) : (d.asserted .omitted).run = some <$> d.build := by
  rw [run_asserted]
  refine congrArg (· <$> d.build) (funext fun b => if_neg fun h => ?_)
  cases h.1

end Draft

/-! ### Databases -/

/-- What is run is aligned. -/
def Request.isAligned : Request → Bool
  | .execute s => s.isAligned
  | .executeMany b => b.isAligned
  | .executeScript _ | .describeTable _ | .listTables => true

/-- What is given back is a statement that is not aligned. -/
def Output.IsMisaligned : Output → Prop
  | .statement s => s.isAligned = false
  | .rows _ | .batch _ => False

namespace Session

variable {σ α β : Type}

/-- Something misaligned is run, or the result is bad. -/
def Shows (bad : α → Prop) (x : OptionT (Session σ) α) (st : σ) : Prop :=
  (∃ r ∈ (x.run st).requests, r.isAligned = false) ∨
    ∃ a, (x.run st).result = .ok (some a) ∧ bad a

/-- The first one is the second one with assertions checked: it runs nothing misaligned and its
result is not bad; it is stopped only if the second one shows what is wrong, and else it does the
same. -/
structure Checks (bad : α → Prop) (x y : OptionT (Session σ) α) : Prop where
  sound : ∀ st, ¬ Shows bad x st
  agrees : ∀ st, (x.run st).result = .ok none ∨ x.run st = y.run st
  stopped : ∀ st, (x.run st).result = .ok none → Shows bad y st

/-- It is stopped if and only if something wrong is shown without it. -/
theorem Checks.stopped_iff {bad : α → Prop} {x y : OptionT (Session σ) α} (h : Checks bad x y)
    (st : σ) : (x.run st).result = .ok none ↔ Shows bad y st := by
  refine ⟨h.stopped st, fun hshows => (h.agrees st).resolve_right fun heq => h.sound st ?_⟩
  rwa [Shows, heq]

theorem run_lift_apply (x : Session σ α) (st : σ) :
    (OptionT.lift x).run st =
      ⟨(x st).requests, (x st).events, some <$> (x st).result, (x st).state⟩ := by
  rw [OptionT.run_lift]
  cases h : (x st).result with
  | ok a =>
    rw [bind_of_ok h, pure_apply, List.append_nil, List.append_nil]
    rfl
  | error e =>
    rw [bind_of_error h]
    rfl

theorem requests_subset_bind (x : Session σ α) (f : α → Session σ β) (st : σ) :
    (x st).requests ⊆ ((x >>= f) st).requests := by
  cases h : (x st).result with
  | ok a =>
    rw [bind_of_ok h]
    exact List.subset_append_left _ _
  | error e =>
    rw [bind_of_error h]
    exact List.Subset.refl _

/-- What asks for nothing misaligned, without a bad result, needs no assertion. -/
theorem checks_lift {bad : α → Prop} {x : Session σ α} {l : List Request}
    (hx : ∀ st, (x st).requests = l) (hl : ∀ r ∈ l, r.isAligned = true)
    (hbad : ∀ st a, (x st).result = .ok a → ¬ bad a) :
    Checks bad (OptionT.lift x) (OptionT.lift x) where
  sound := by
    rintro st (⟨r, hr, hf⟩ | ⟨a, ha, hb⟩)
    · rw [run_lift_apply] at hr
      rw [hl r (hx st ▸ hr)] at hf
      cases hf
    · rw [run_lift_apply] at ha
      obtain ⟨a', ha', heq⟩ := map_eq_ok.1 ha
      cases heq
      exact hbad st a ha' hb
  agrees := fun _ => .inr rfl
  stopped := by
    intro st h
    rw [run_lift_apply] at h
    obtain ⟨a, -, heq⟩ := map_eq_ok.1 h
    cases heq

theorem checks_pure {bad : α → Prop} {a : α} (h : ¬ bad a) :
    Checks bad (pure a : OptionT (Session σ) α) (pure a) := by
  rw [← lift_pure]
  refine checks_lift (silent_pure a) (fun _ hr => absurd hr List.not_mem_nil) fun st a' ha => ?_
  cases ha
  exact h

/-- What asks for one aligned thing is not stopped. -/
theorem checks_request {x : Session σ α} {r : Request} (hx : ∀ st, (x st).requests = [r])
    (hr : r.isAligned = true) : Checks (fun _ => False) (OptionT.lift x) (OptionT.lift x) :=
  checks_lift hx (List.forall_mem_singleton.2 hr) fun _ _ _ => id

theorem shows_request {bad : α → Prop} {x : Session σ α} {r : Request}
    (hx : ∀ st, (x st).requests = [r]) (hr : r.isAligned = false) (st : σ) :
    Shows bad (OptionT.lift x) st := by
  rw [Shows, run_lift_apply]
  exact .inl ⟨r, hx st ▸ List.mem_singleton_self r, hr⟩

/-- After an assertion what was asserted holds; if it does not, what follows must show it. -/
theorem checks_assert {bad : α → Prop} (holds : Bool) {x y : OptionT (Session σ) α}
    (h : holds = true → Checks bad x y) (hf : holds = false → ∀ st, Shows bad y st) :
    Checks bad (Assertions.checked.assert holds >>= fun _ => x)
      (Assertions.omitted.assert holds >>= fun _ => y) := by
  rw [Assertions.checked_bind, Assertions.omitted_bind]
  cases holds with
  | true => exact h rfl
  | false =>
    refine ⟨?_, fun _ => .inl rfl, fun st _ => hf rfl st⟩
    rintro st (⟨r, hr, -⟩ | ⟨a, ha, -⟩)
    · cases hr
    · cases ha

theorem Shows.bind_left {x : OptionT (Session σ) α} {st : σ} (h : Shows (fun _ => False) x st)
    (bad : β → Prop) (f : α → OptionT (Session σ) β) : Shows bad (x >>= f) st := by
  obtain ⟨r, hr, hf⟩ := h.resolve_right fun ⟨_, _, hbad⟩ => hbad
  refine .inl ⟨r, ?_, hf⟩
  rw [OptionT.run_bind, Option.elimM]
  exact requests_subset_bind _ _ st hr

theorem run_bind_of_error {x : OptionT (Session σ) α} {st : σ} {e : Error}
    (hx : (x.run st).result = .error e) (f : α → OptionT (Session σ) β) :
    (x >>= f).run st = ⟨(x.run st).requests, (x.run st).events, .error e, (x.run st).state⟩ := by
  rw [OptionT.run_bind, Option.elimM, bind_of_error hx]

/-- A stop is the end. -/
theorem run_bind_of_none {x : OptionT (Session σ) α} {st : σ} (hx : (x.run st).result = .ok none)
    (f : α → OptionT (Session σ) β) :
    (x >>= f).run st =
      ⟨(x.run st).requests, (x.run st).events, .ok none, (x.run st).state⟩ := by
  rw [OptionT.run_bind, Option.elimM, bind_of_ok hx, Option.elim_none, pure_apply]
  simp only [List.append_nil]

theorem run_bind_of_some {x : OptionT (Session σ) α} {st : σ} {a : α}
    (hx : (x.run st).result = .ok (some a)) (f : α → OptionT (Session σ) β) :
    (x >>= f).run st =
      ⟨(x.run st).requests ++ ((f a).run (x.run st).state).requests,
       (x.run st).events ++ ((f a).run (x.run st).state).events,
       ((f a).run (x.run st).state).result, ((f a).run (x.run st).state).state⟩ := by
  rw [OptionT.run_bind, Option.elimM, bind_of_ok hx, Option.elim_some]

theorem shows_bind_iff {bad : β → Prop} {x : OptionT (Session σ) α} {st : σ} {a : α}
    (hx : (x.run st).result = .ok (some a)) (f : α → OptionT (Session σ) β) :
    Shows bad (x >>= f) st ↔
      Shows (fun _ => False) x st ∨ Shows bad (f a) (x.run st).state := by
  simp only [Shows, run_bind_of_some hx, List.mem_append, or_and_right, exists_or, and_false,
    exists_false, or_false, or_assoc]

/-- Work that ends with its first part shows no more than that. -/
theorem not_shows_of_ended {bad : β → Prop} {x : OptionT (Session σ) α} {z : OptionT (Session σ) β}
    {st : σ} (hx : ¬ Shows (fun _ => False) x st)
    (hrequests : (z.run st).requests = (x.run st).requests)
    (hresult : ∀ b, (z.run st).result ≠ .ok (some b)) : ¬ Shows bad z st := by
  rintro (hr | ⟨b, hb, -⟩)
  · exact hx (.inl (hrequests ▸ hr))
  · exact hresult b hb

/-- Work goes on after a first part without a bad result. -/
theorem Checks.bind {bad : β → Prop} {x y : OptionT (Session σ) α}
    (h : Checks (fun _ => False) x y) {f g : α → OptionT (Session σ) β}
    (hf : ∀ a, Checks bad (f a) (g a)) : Checks bad (x >>= f) (y >>= g) := by
  have hstep (st : σ) : ¬ Shows bad (x >>= f) st ∧
      (((x >>= f).run st).result = .ok none ∨ (x >>= f).run st = (y >>= g).run st) ∧
      (((x >>= f).run st).result = .ok none → Shows bad (y >>= g) st) := by
    have hsound := h.sound st
    cases hx : (x.run st).result with
    | error e =>
      have heq := (h.agrees st).resolve_left (by rw [hx]; nofun)
      have hrun := run_bind_of_error hx f
      have hend : ¬ Shows bad (x >>= f) st :=
        not_shows_of_ended hsound (by rw [hrun]) (by rw [hrun]; nofun)
      refine ⟨hend, .inr ?_, by rw [hrun]; nofun⟩
      rw [hrun, run_bind_of_error (heq ▸ hx), ← heq]
    | ok o =>
      cases o with
      | none =>
        have hrun := run_bind_of_none hx f
        have hend : ¬ Shows bad (x >>= f) st :=
          not_shows_of_ended hsound (by rw [hrun]) (by rw [hrun]; nofun)
        exact ⟨hend, .inl (congrArg Run.result hrun), fun _ => (h.stopped st hx).bind_left bad g⟩
      | some a =>
        have heq := (h.agrees st).resolve_left (by rw [hx]; nofun)
        have hy : (y.run st).result = .ok (some a) := heq ▸ hx
        rw [shows_bind_iff hx, shows_bind_iff hy, run_bind_of_some hx, run_bind_of_some hy, ← heq]
        refine ⟨not_or.2 ⟨hsound, (hf a).sound _⟩, ?_, fun hn => .inr ((hf a).stopped _ hn)⟩
        exact ((hf a).agrees _).imp id fun hrun => by rw [hrun]
  exact ⟨fun st => (hstep st).1, fun st => (hstep st).2.1, fun st => (hstep st).2.2⟩

end Session

theorem Operation.isAligned_lookups (op : Operation) : ∀ r ∈ op.lookups, r.isAligned = true := by
  cases op with
  | insert table args options =>
    rw [lookups]
    split
    · exact List.forall_mem_singleton.2 rfl
    · exact fun r hr => absurd hr List.not_mem_nil
  | insertMany table input options =>
    cases input with
    | rows rows => exact List.forall_mem_singleton.2 rfl
    | columns columns => exact fun r hr => absurd hr List.not_mem_nil
  | createTable | dropTable | select | update | delete =>
    exact fun r hr => absurd hr List.not_mem_nil

theorem Operation.withExecute_execute (op : Operation) : op.withExecute op.execute = op := by
  cases op <;> rfl

namespace Database

variable {σ : Type} (db : Database σ)

/-! #### Left out -/

theorem conclude_omitted (execute : Bool) (out : Output) :
    db.conclude .omitted execute out =
      OptionT.lift (if execute then db.carryOut out else pure out) := by
  cases out with
  | rows rows => cases execute <;> rfl
  | statement s => cases execute <;> exact Assertions.omitted_bind _ _
  | batch b =>
    cases execute with
    | false => rfl
    | true => exact Assertions.omitted_bind _ _

theorem conduct_omitted {op : Operation} (h : op.execute = true → ¬ op.TriesFast db.config) :
    db.conduct .omitted op = OptionT.lift (db.perform op) := by
  unfold conduct
  rw [funext (db.conclude_omitted op.execute), lift_bind_lift]
  cases he : op.execute with
  | false =>
    simp only [Bool.false_eq_true, if_false, bind_pure]
    rw [← he, op.withExecute_execute]
  | true =>
    simp only [if_true]
    rw [← db.perform_true (h he), ← he, op.withExecute_execute]

theorem callIntoColumns_omitted (table : String) (values : List Value) (options : InsertOptions) :
    db.callIntoColumns .omitted table values options =
      OptionT.lift (db.insertIntoColumns table values options) := by
  unfold callIntoColumns
  rw [funext (db.conclude_omitted options.execute), lift_bind_lift]
  obtain ⟨verb, onConflict, tables, execute⟩ := options
  cases execute with
  | false => simp only [Bool.false_eq_true, if_false, bind_pure]
  | true =>
    simp only [if_true]
    exact congrArg OptionT.lift
      (db.insertIntoColumns_true table values ⟨verb, onConflict, tables, true⟩).symm

theorem callFast_omitted (table : String) (values : List Value) (options : InsertOptions) :
    db.callFast .omitted table values options =
      OptionT.lift (db.insertFast table values options) := by
  unfold callFast insertFast
  rw [← lift_bind_lift]
  refine bind_congr fun s => ?_
  rw [Assertions.omitted_bind, ← lift_bind_lift]
  refine bind_congr fun r => ?_
  cases r with
  | ok rows => rfl
  | error e =>
    simp only [callIntoColumns_omitted, lift_bind_lift]
    split <;> rfl

/-- **Assertions that are left out change nothing** of a call. -/
theorem call_omitted (op : Operation) : db.call .omitted op = OptionT.lift (db.perform op) := by
  unfold call
  split
  · rename_i table args options
    split
    · rename_i values hr
      split
      · rename_i hfast
        rw [callFast_omitted, perform, insert, hr, Session.ofExcept_ok_bind]
        simp only [hfast, if_true]
      · rename_i hfast
        refine db.conduct_omitted fun he htries => hfast ?_
        exact Bool.and_eq_true_iff.2 ⟨he, htries.1⟩
    · rename_i hr
      exact db.conduct_omitted fun _ htries => htries.2.elim hr
  · rename_i hop
    refine db.conduct_omitted fun _ htries => ?_
    cases op with
    | insert table args options => exact hop table args options rfl
    | createTable | dropTable | insertMany | select | update | delete => exact htries

theorem callAll_omitted (ops : List Operation) :
    db.callAll .omitted ops = OptionT.lift (ops.mapM db.perform) := by
  unfold callAll
  rw [funext db.call_omitted, mapM_lift]

theorem callSelectAll_omitted (table : String) :
    db.callSelectAll .omitted table = OptionT.lift (db.selectAll table) := by
  unfold callSelectAll selectAll
  rw [← lift_bind_lift]
  exact bind_congr fun s => Assertions.omitted_bind _ _

/-! #### Checked -/

section

open Session

/-- What asks for nothing is not stopped. -/
theorem checks_silent {α : Type} {x : Session σ α} (h : x.Silent) :
    Checks (fun _ => False) (OptionT.lift x) (OptionT.lift x) :=
  checks_lift h (fun _ hr => absurd hr List.not_mem_nil) fun _ _ _ => id

theorem requests_rows {x : Session σ (List Row)} {r : Request}
    (hx : ∀ st, (x st).requests = [r]) (st : σ) :
    ((x >>= fun rows => pure (Output.rows rows)) st).requests = [r] :=
  (requests_bind_of_silent x (fun _ => silent_pure _) st).trans (hx st)

/-- To be given rows for one aligned thing needs no assertion. -/
theorem checks_rows {x : Session σ (List Row)} {r : Request} (hx : ∀ st, (x st).requests = [r])
    (hr : r.isAligned = true) :
    Checks Output.IsMisaligned (OptionT.lift (x >>= fun rows => pure (.rows rows)))
      (OptionT.lift (x >>= fun rows => pure (.rows rows))) := by
  refine checks_lift (requests_rows hx) (List.forall_mem_singleton.2 hr) fun st out hout => ?_
  obtain ⟨rows, -, hrows⟩ := result_bind_eq_ok hout
  cases hrows
  exact id

theorem checks_finish (s : Statement) (execute : Bool) :
    Checks Output.IsMisaligned
      (Assertions.checked.assert s.isAligned >>= fun _ => OptionT.lift (db.finish s execute))
      (Assertions.omitted.assert s.isAligned >>= fun _ => OptionT.lift (db.finish s execute)) := by
  have hrequests : ∀ st, (db.execute s st).requests = [.execute s] := fun _ => rfl
  cases execute with
  | false =>
    simp only [finish_false, lift_pure]
    refine checks_assert _ (fun hs => checks_pure fun hf => ?_) fun hf st =>
      .inr ⟨.statement s, rfl, hf⟩
    cases hs.symm.trans hf
  | true => exact checks_assert _ (checks_rows hrequests) (shows_request (requests_rows hrequests))

theorem checks_conclude (execute : Bool) (out : Output) :
    Checks Output.IsMisaligned (db.conclude .checked execute out)
      (db.conclude .omitted execute out) := by
  cases out with
  | rows rows => exact checks_pure id
  | statement s => exact db.checks_finish s execute
  | batch b =>
    have hrequests : ∀ st, (db.executeMany b st).requests = [.executeMany b] := fun _ => rfl
    cases execute with
    | false => exact checks_pure id
    | true =>
      exact checks_assert _ (checks_rows hrequests) (shows_request (requests_rows hrequests))

theorem checks_conduct (op : Operation) :
    Checks Output.IsMisaligned (db.conduct .checked op) (db.conduct .omitted op) := by
  refine Checks.bind ?_ fun out => db.checks_conclude op.execute out
  exact checks_lift (db.requests_perform_false op) op.isAligned_lookups fun _ _ _ => id

theorem checks_callIntoColumns (table : String) (values : List Value) (options : InsertOptions) :
    Checks Output.IsMisaligned (db.callIntoColumns .checked table values options)
      (db.callIntoColumns .omitted table values options) := by
  refine Checks.bind ?_ fun out => db.checks_conclude options.execute out
  exact checks_request (db.requests_insertIntoColumns_false table values options) rfl

theorem checks_callFast (table : String) (values : List Value) (options : InsertOptions) :
    Checks Output.IsMisaligned (db.callFast .checked table values options)
      (db.callFast .omitted table values options) := by
  refine (checks_silent (silent_ofExcept _)).bind fun s => ?_
  have hrequests : ∀ st, (attempt (db.execute s) st).requests = [.execute s] := fun _ => rfl
  refine checks_assert _ (fun hs => ?_) fun hf st =>
    (shows_request hrequests hf st).bind_left _ _
  refine (checks_request hrequests hs).bind fun r => ?_
  cases r with
  | ok rows => exact checks_pure id
  | error e =>
    by_cases he : e.isArityFailure = true
    · simp only [he, if_true]
      exact (checks_silent fun _ => rfl).bind fun _ =>
        db.checks_callIntoColumns table values options
    · simp only [he]
      refine checks_lift (silent_ofExcept _) (fun _ hr => absurd hr List.not_mem_nil) ?_
      exact nofun

theorem checks_call (op : Operation) :
    Checks Output.IsMisaligned (db.call .checked op) (db.call .omitted op) := by
  unfold call
  split
  · split
    · split
      · exact db.checks_callFast _ _ _
      · exact db.checks_conduct _
    · exact db.checks_conduct _
  · exact db.checks_conduct _

/-- **Assertions that are checked** let nothing misaligned be run.  A call is stopped if and only if
without them it runs something misaligned or gives back a statement that is, and otherwise it does
the same. -/
theorem call_checked (op : Operation) (st : σ) :
    (∀ r ∈ ((db.call .checked op).run st).requests, r.isAligned = true) ∧
      (((db.call .checked op).run st).result = .ok none ↔
        (∃ r ∈ (db.perform op st).requests, r.isAligned = false) ∨
          ∃ s, (db.perform op st).result = .ok (.statement s) ∧ s.isAligned = false) ∧
      (((db.call .checked op).run st).result = .ok none ∨
        (db.call .checked op).run st = (OptionT.lift (db.perform op)).run st) := by
  have h := db.checks_call op
  rw [call_omitted] at h
  refine ⟨fun r hr => ?_, ?_, h.agrees st⟩
  · cases hal : r.isAligned with
    | true => rfl
    | false => exact absurd (.inl ⟨r, hr, hal⟩) (h.sound st)
  · rw [h.stopped_iff, Shows, run_lift_apply]
    refine or_congr Iff.rfl ⟨?_, ?_⟩
    · rintro ⟨out, hout, hbad⟩
      obtain ⟨out', hperform, heq⟩ := map_eq_ok.1 hout
      cases heq
      cases out with
      | statement s => exact ⟨s, hperform, hbad⟩
      | rows | batch => exact hbad.elim
    · rintro ⟨s, hs, hf⟩
      exact ⟨.statement s, by rw [hs]; rfl, hf⟩

theorem checks_callSelectAll (table : String) :
    Checks (fun _ => False) (db.callSelectAll .checked table)
      (db.callSelectAll .omitted table) := by
  refine (checks_silent (silent_ofBuild _)).bind fun s => ?_
  have hrequests : ∀ st, (db.execute s st).requests = [.execute s] := fun _ => rfl
  exact checks_assert _ (checks_request hrequests) (shows_request hrequests)

end

end Database

end BoundSql
