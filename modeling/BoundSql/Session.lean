import BoundSql.Build
import BoundSql.Engine.Basic

/-!
# Sessions

A `Session` is work against an engine: from the engine's state it yields what was asked of the
engine, what was reported, the result or the first error, and the state afterwards.  What follows an
error does not happen, unless `Session.attempt` turns the error into a result.
-/

namespace BoundSql

/-- What a session did. -/
structure Run (σ α : Type) where
  requests : List Request
  events : List Event
  result : Except Error α
  state : σ

/-- Work against an engine with states `σ`. -/
def Session (σ α : Type) := σ → Run σ α

namespace Session

variable {σ α β γ : Type}

/-- Goes on with the result, if there is one. -/
def andThen (x : Session σ α) (f : α → Session σ β) : Session σ β := fun st =>
  let r := x st
  match r.result with
  | .ok a =>
    let r' := f a r.state
    ⟨r.requests ++ r'.requests, r.events ++ r'.events, r'.result, r'.state⟩
  | .error e => ⟨r.requests, r.events, .error e, r.state⟩

instance : Monad (Session σ) where
  pure a := fun st => ⟨[], [], .ok a, st⟩
  bind := andThen

/-- What building something gives, the engine untouched. -/
def ofBuild (b : Build α) : Session σ α := fun st => ⟨[], b.events, b.result, st⟩

/-- A result or an error, the engine untouched. -/
def ofExcept (r : Except Error α) : Session σ α := fun st => ⟨[], [], r, st⟩

/-- Fails. -/
def fail (e : Error) : Session σ α := ofExcept (.error e)

/-- Reports an event. -/
def report (e : Event) : Session σ Unit := fun st => ⟨[], [e], .ok (), st⟩

/-- Asks something of the engine. -/
def ask (r : Request) (action : Engine.Action σ α) : Session σ α := fun st =>
  let (result, st') := action st
  ⟨[r], [], result, st'⟩

/-- The result of other work, which may be an error. -/
def attempt (x : Session σ α) : Session σ (Except Error α) := fun st =>
  let r := x st
  ⟨r.requests, r.events, .ok r.result, r.state⟩

theorem pure_apply (a : α) (st : σ) : (pure a : Session σ α) st = ⟨[], [], .ok a, st⟩ := rfl

theorem bind_apply (x : Session σ α) (f : α → Session σ β) (st : σ) :
    (x >>= f) st = x.andThen f st := rfl

theorem bind_of_ok {x : Session σ α} {f : α → Session σ β} {st : σ} {a : α}
    (h : (x st).result = .ok a) :
    (x >>= f) st =
      ⟨(x st).requests ++ (f a (x st).state).requests, (x st).events ++ (f a (x st).state).events,
       (f a (x st).state).result, (f a (x st).state).state⟩ := by
  rw [bind_apply, andThen]
  simp only [h]

theorem bind_of_error {x : Session σ α} {f : α → Session σ β} {st : σ} {e : Error}
    (h : (x st).result = .error e) :
    (x >>= f) st = ⟨(x st).requests, (x st).events, .error e, (x st).state⟩ := by
  rw [bind_apply, andThen]
  simp only [h]

@[simp] theorem ofExcept_ok_bind (a : α) (f : α → Session σ β) :
    (ofExcept (.ok a) >>= f) = f a := by
  funext st
  rw [bind_of_ok rfl]
  simp only [ofExcept, List.nil_append]

@[simp] theorem ofExcept_error_bind (e : Error) (f : α → Session σ β) :
    (ofExcept (.error e) >>= f) = fail e := by
  funext st
  rw [bind_of_error rfl]
  rfl

/-! ### Laws -/

theorem map_id (x : Session σ α) : id <$> x = x := by
  funext st
  change (x >>= fun a => pure (id a)) st = x st
  cases h : (x st).result with
  | ok a =>
    rw [bind_of_ok h]
    simp only [pure_apply, List.append_nil, id, ← h]
  | error e =>
    rw [bind_of_error h]
    simp only [← h]

theorem pure_bind (a : α) (f : α → Session σ β) : pure a >>= f = f a := by
  funext st
  rw [bind_of_ok rfl]
  simp only [pure_apply, List.nil_append]

theorem bind_assoc (x : Session σ α) (f : α → Session σ β) (g : β → Session σ γ) :
    x >>= f >>= g = x >>= fun a => f a >>= g := by
  funext st
  cases h : (x st).result with
  | error e =>
    have hf : ((x >>= f) st).result = .error e := by rw [bind_of_error h]
    rw [bind_of_error hf, bind_of_error h, bind_of_error h]
  | ok a =>
    rw [bind_of_ok h]
    cases h' : (f a (x st).state).result with
    | error e =>
      have hf : ((x >>= f) st).result = .error e := by rw [bind_of_ok h, h']
      rw [bind_of_error hf, bind_of_error h', bind_of_ok h]
    | ok b =>
      have hf : ((x >>= f) st).result = .ok b := by rw [bind_of_ok h, h']
      rw [bind_of_ok hf, bind_of_ok h', bind_of_ok h]
      simp only [List.append_assoc]

instance : LawfulMonad (Session σ) := LawfulMonad.mk' (Session σ) map_id pure_bind bind_assoc

end Session

end BoundSql
