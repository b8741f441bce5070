import BoundSql.Event

/-!
# Building

A `Build` is the outcome of building something: the events reported on the way, in order, and the
result or the first error.  What follows an error does not happen, so it reports nothing.
-/

namespace BoundSql

/-- The events of building something, and its result. -/
structure Build (α : Type) where
  events : List Event
  result : Except Error α

namespace Build

variable {α β γ : Type}

/-- Reports an event. -/
def report (e : Event) : Build Unit := ⟨[e], .ok ()⟩

/-- Fails. -/
def fail (e : Error) : Build α := ⟨[], .error e⟩

/-- A result without events. -/
def ofExcept (r : Except Error α) : Build α := ⟨[], r⟩

/-- Goes on with the result, if there is one. -/
def andThen (x : Build α) (f : α → Build β) : Build β :=
  match x.result with
  | .ok a => ⟨x.events ++ (f a).events, (f a).result⟩
  | .error e => ⟨x.events, .error e⟩

instance : Monad Build where
  pure a := ⟨[], .ok a⟩
  bind := andThen

instance : MonadLift (Except Error) Build where
  monadLift := ofExcept

theorem pure_eq (a : α) : (pure a : Build α) = ⟨[], .ok a⟩ := rfl

@[simp] theorem mk_ok_bind (es : List Event) (a : α) (f : α → Build β) :
    (Build.mk es (.ok a) >>= f) = ⟨es ++ (f a).events, (f a).result⟩ := rfl

@[simp] theorem mk_error_bind (es : List Event) (e : Error) (f : α → Build β) :
    (Build.mk es (.error e) >>= f) = ⟨es, .error e⟩ := rfl

@[simp] theorem ofExcept_ok_bind (a : α) (f : α → Build β) : (ofExcept (.ok a) >>= f) = f a := by
  simp only [ofExcept, mk_ok_bind, List.nil_append]

@[simp] theorem ofExcept_error_bind (e : Error) (f : α → Build β) :
    (ofExcept (.error e) >>= f) = fail e := rfl

theorem map_id (x : Build α) : id <$> x = x := by
  obtain ⟨es, r⟩ := x
  cases r <;> simp only [Functor.map, andThen, Function.comp, id, List.append_nil]

theorem pure_bind (a : α) (f : α → Build β) : pure a >>= f = f a := by
  simp only [pure_eq, mk_ok_bind, List.nil_append]

theorem bind_assoc (x : Build α) (f : α → Build β) (g : β → Build γ) :
    x >>= f >>= g = x >>= fun a => f a >>= g := by
  obtain ⟨es, r⟩ := x
  cases r with
  | error e => rfl
  | ok a =>
    simp only [mk_ok_bind]
    obtain ⟨es', r'⟩ := f a
    cases r' <;> simp only [mk_ok_bind, mk_error_bind, List.append_assoc]

instance : LawfulMonad Build := LawfulMonad.mk' Build map_id pure_bind bind_assoc

end Build

end BoundSql
