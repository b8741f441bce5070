import BoundSql.Database

/-!
# The shapes of a call

`ResolvesTo` lists the shapes in which the data of a call can come, with what each resolves to, and
`Arguments.resolve_eq_iff` says that there are no others.  `Arguments.resolves` is the main
statement: which shapes give bindings, which give values, and which are refused for what reason; and
that two shapes for the same data cannot be told apart by anything that takes arguments.
-/

namespace BoundSql

/-- The argument is a container. -/
def Argument.IsContainer : Argument → Prop
  | .scalar _ => False
  | .sequence _ => True
  | .mapping _ => True

namespace Arguments

/-! ### Scalars -/

theorem scalars_map (operation : String) (position : Nat) (vs : List Value) :
    scalars operation position (vs.map .scalar) = .ok vs := by
  induction vs generalizing position with
  | nil => rfl
  | cons v vs ih =>
    simp only [List.map_cons, scalars, ih]
    rfl

/-- The first container is refused, whatever follows it. -/
theorem scalars_map_append (operation : String) (position : Nat) (vs : List Value) {a : Argument}
    (ha : a.IsContainer) (rest : List Argument) :
    scalars operation position (vs.map .scalar ++ a :: rest) =
      .error (.shape operation (.containerAmong (position + vs.length) a.kind)) := by
  induction vs generalizing position with
  | nil =>
    cases a with
    | scalar v => exact ha.elim
    | sequence values => rfl
    | mapping b => rfl
  | cons v vs ih =>
    simp only [List.map_cons, List.cons_append, scalars, ih, List.length_cons]
    rw [Nat.add_right_comm]
    rfl

/-- Arguments are values each, or there is a first container. -/
theorem scalars_or_container (l : List Argument) :
    (∃ vs : List Value, l = vs.map .scalar) ∨
      ∃ (vs : List Value) (a : Argument) (rest : List Argument),
        l = vs.map .scalar ++ a :: rest ∧ a.IsContainer := by
  induction l with
  | nil => exact .inl ⟨[], rfl⟩
  | cons a l ih =>
    cases a with
    | scalar v =>
      rcases ih with ⟨vs, rfl⟩ | ⟨vs, a, rest, rfl, ha⟩
      · exact .inl ⟨v :: vs, rfl⟩
      · exact .inr ⟨v :: vs, a, rest, rfl, ha⟩
    | sequence values => exact .inr ⟨[], _, l, rfl, trivial⟩
    | mapping b => exact .inr ⟨[], _, l, rfl, trivial⟩

end Arguments

/-! ### All shapes -/

/-- What the data of a call resolve to, by their shape. -/
inductive ResolvesTo (operation : String) : Arguments → Except Error Resolved → Prop where
  /-- Keyword bindings. -/
  | keywords {b : Bindings} (h : b ≠ []) : ResolvesTo operation ⟨[], b⟩ (.ok (.bindings b))
  /-- One mapping. -/
  | mapping {b : Bindings} (h : b ≠ []) :
    ResolvesTo operation ⟨[.mapping b], []⟩ (.ok (.bindings b))
  /-- One sequence. -/
  | sequence {vs : List Value} (h : vs ≠ []) :
    ResolvesTo operation ⟨[.sequence vs], []⟩ (.ok (.positional vs))
  /-- Values one by one. -/
  | scalars {vs : List Value} (h : vs ≠ []) :
    ResolvesTo operation ⟨vs.map .scalar, []⟩ (.ok (.positional vs))
  /-- No data at all. -/
  | nothing : ResolvesTo operation ⟨[], []⟩ (.error (.noData operation))
  | emptyMapping : ResolvesTo operation ⟨[.mapping []], []⟩ (.error (.noData operation))
  | emptySequence : ResolvesTo operation ⟨[.sequence []], []⟩ (.error (.noData operation))
  /-- Positional and keyword data in one call. -/
  | mixed {positional : List Argument} {keywords : Bindings} (hp : positional ≠ [])
    (hk : keywords ≠ []) :
    ResolvesTo operation ⟨positional, keywords⟩ (.error (.shape operation .mixed))
  /-- A container behind values or with something behind it. -/
  | container {vs : List Value} {a : Argument} {rest : List Argument} (ha : a.IsContainer)
    (several : 2 ≤ (vs.map Argument.scalar ++ a :: rest).length) :
    ResolvesTo operation ⟨vs.map .scalar ++ a :: rest, []⟩
      (.error (.shape operation (.containerAmong (vs.length + 1) a.kind)))

namespace Arguments

/-- Several arguments are values each, or refused. -/
theorem resolve_of_several (operation : String) {l : List Argument} (h : 2 ≤ l.length) :
    resolve operation ⟨l, []⟩ = Resolved.positional <$> scalars operation 1 l := by
  obtain ⟨a, a', l, rfl⟩ : ∃ a a' l', l = a :: a' :: l' := by
    match l, h with
    | a :: a' :: l, _ => exact ⟨a, a', l, rfl⟩
  cases a with
  | scalar v => rfl
  | sequence values => cases values <;> rfl
  | mapping b => cases b <;> rfl

theorem resolve_of_resolvesTo {operation : String} {args : Arguments} {r : Except Error Resolved}
    (h : ResolvesTo operation args r) : args.resolve operation = r := by
  cases h with
  | @keywords b h =>
    cases b with
    | nil => exact absurd rfl h
    | cons e b => rfl
  | @mapping b h =>
    cases b with
    | nil => exact absurd rfl h
    | cons e b => rfl
  | @sequence vs h =>
    cases vs with
    | nil => exact absurd rfl h
    | cons v vs => rfl
  | @scalars vs h =>
    cases vs with
    | nil => exact absurd rfl h
    | cons v vs =>
      cases vs with
      | nil => rfl
      | cons v' vs =>
        have hl : 2 ≤ ((v :: v' :: vs).map Argument.scalar).length := by simp
        rw [resolve_of_several operation hl, scalars_map]
        rfl
  | nothing => rfl
  | emptyMapping => rfl
  | emptySequence => rfl
  | @mixed positional keywords hp hk =>
    cases positional with
    | nil => exact absurd rfl hp
    | cons a l =>
      cases keywords with
      | nil => exact absurd rfl hk
      | cons e b => rfl
  | @container vs a rest ha several =>
    rw [resolve_of_several operation several, scalars_map_append operation 1 vs ha, Nat.add_comm 1]
    rfl

theorem resolvesTo_resolve (operation : String) (args : Arguments) :
    ResolvesTo operation args (args.resolve operation) := by
  obtain ⟨positional, keywords⟩ := args
  by_cases hk : keywords = []
  · subst hk
    rcases scalars_or_container positional with ⟨vs, rfl⟩ | ⟨vs, a, rest, rfl, ha⟩
    · by_cases hv : vs = []
      · subst hv
        exact .nothing
      · have h : ResolvesTo operation ⟨vs.map .scalar, []⟩ _ := .scalars hv
        rwa [resolve_of_resolvesTo h]
    · by_cases hs : 2 ≤ (vs.map Argument.scalar ++ a :: rest).length
      · have h : ResolvesTo operation ⟨vs.map .scalar ++ a :: rest, []⟩ _ := .container ha hs
        rwa [resolve_of_resolvesTo h]
      · -- the container is the only argument
        obtain ⟨rfl, rfl⟩ : vs = [] ∧ rest = [] := by
          simp only [List.length_append, List.length_map, List.length_cons] at hs
          exact ⟨List.length_eq_zero_iff.1 (by omega), List.length_eq_zero_iff.1 (by omega)⟩
        cases a with
        | scalar v => exact ha.elim
        | sequence values =>
          cases values with
          | nil => exact .emptySequence
          | cons v values => exact .sequence (List.cons_ne_nil v values)
        | mapping b =>
          cases b with
          | nil => exact .emptyMapping
          | cons e b => exact .mapping (List.cons_ne_nil e b)
  · by_cases hp : positional = []
    · subst hp
      have h : ResolvesTo operation ⟨[], keywords⟩ _ := .keywords hk
      rwa [resolve_of_resolvesTo h]
    · have h : ResolvesTo operation ⟨positional, keywords⟩ _ := .mixed hp hk
      rwa [resolve_of_resolvesTo h]

/-- **A call resolves by its shape**, and every call has one. -/
theorem resolve_eq_iff {operation : String} {args : Arguments} {r : Except Error Resolved} :
    args.resolve operation = r ↔ ResolvesTo operation args r :=
  ⟨fun h => h ▸ resolvesTo_resolve operation args, resolve_of_resolvesTo⟩

/-! ### What is accepted -/

/-- What a call resolves to, read from its arguments. -/
structure Resolves (operation : String) (args : Arguments) (r : Except Error Resolved) : Prop where
  /-- Bindings come as keywords or as one mapping. -/
  bindings : ∀ b, r = .ok (.bindings b) ↔ b ≠ [] ∧
    (args.positional = [] ∧ args.keywords = b ∨
      args.keywords = [] ∧ args.positional = [.mapping b])
  /-- Values come as one sequence or one by one. -/
  positional : ∀ vs, r = .ok (.positional vs) ↔ vs ≠ [] ∧ args.keywords = [] ∧
    (args.positional = [.sequence vs] ∨ args.positional = vs.map .scalar)
  /-- Nothing, or one container without anything in it, are no data. -/
  noData : r = .error (.noData operation) ↔ args.keywords = [] ∧
    (args.positional = [] ∨ args.positional = [.mapping []] ∨ args.positional = [.sequence []])
  /-- Positional and keyword data do not go together. -/
  mixed : r = .error (.shape operation .mixed) ↔ args.positional ≠ [] ∧ args.keywords ≠ []
  /-- Of containers among several arguments, the first one is named. -/
  container : ∀ position kind, r = .error (.shape operation (.containerAmong position kind)) ↔
    args.keywords = [] ∧ 2 ≤ args.positional.length ∧
      ∃ (vs : List Value) (a : Argument) (rest : List Argument),
        args.positional = vs.map .scalar ++ a :: rest ∧ a.IsContainer ∧
        position = vs.length + 1 ∧ kind = a.kind
  /-- The words for this are about the place and the kind of the container. -/
  message : ∀ (vs : List Value) (a : Argument) (rest : List Argument), args.keywords = [] →
    args.positional = vs.map .scalar ++ a :: rest → a.IsContainer → 2 ≤ args.positional.length →
    ∃ e, r = .error e ∧ e.message = operation ++ ": " ++ ("positional argument " ++
      toString (vs.length + 1) ++ " is a " ++ a.kind ++ "; only scalars may follow one another")
  /-- There are no other errors. -/
  errors : ∀ e, r = .error e → e = .noData operation ∨ e = .shape operation .mixed ∨
    ∃ position kind, e = .shape operation (.containerAmong position kind)

theorem resolves_resolve (operation : String) (args : Arguments) :
    Resolves operation args (args.resolve operation) where
  bindings := by
    intro b
    rw [resolve_eq_iff]
    constructor
    · intro h
      cases h with
      | keywords h => exact ⟨h, .inl ⟨rfl, rfl⟩⟩
      | mapping h => exact ⟨h, .inr ⟨rfl, rfl⟩⟩
    · obtain ⟨positional, keywords⟩ := args
      rintro ⟨h, ⟨rfl, rfl⟩ | ⟨rfl, rfl⟩⟩
      · exact .keywords h
      · exact .mapping h
  positional := by
    intro vs
    rw [resolve_eq_iff]
    constructor
    · intro h
      cases h with
      | sequence h => exact ⟨h, rfl, .inl rfl⟩
      | scalars h => exact ⟨h, rfl, .inr rfl⟩
    · obtain ⟨positional, keywords⟩ := args
      rintro ⟨h, rfl, rfl | rfl⟩
      · exact .sequence h
      · exact .scalars h
  noData := by
    rw [resolve_eq_iff]
    constructor
    · intro h
      cases h with
      | nothing => exact ⟨rfl, .inl rfl⟩
      | emptyMapping => exact ⟨rfl, .inr (.inl rfl)⟩
      | emptySequence => exact ⟨rfl, .inr (.inr rfl)⟩
    · obtain ⟨positional, keywords⟩ := args
      rintro ⟨rfl, rfl | rfl | rfl⟩
      · exact .nothing
      · exact .emptyMapping
      · exact .emptySequence
  mixed := by
    rw [resolve_eq_iff]
    constructor
    · intro h
      cases h with
      | mixed hp hk => exact ⟨hp, hk⟩
    · exact fun ⟨hp, hk⟩ => .mixed hp hk
  container := by
    intro position kind
    rw [resolve_eq_iff]
    constructor
    · intro h
      cases h with
      | container ha several => exact ⟨rfl, several, _, _, _, rfl, ha, rfl, rfl⟩
    · obtain ⟨positional, keywords⟩ := args
      rintro ⟨rfl, several, vs, a, rest, rfl, ha, rfl, rfl⟩
      exact .container ha several
  message := by
    obtain ⟨positional, keywords⟩ := args
    rintro vs a rest rfl rfl ha several
    exact ⟨_, resolve_eq_iff.2 (.container ha several), rfl⟩
  errors := by
    intro e h
    rw [resolve_eq_iff] at h
    cases h with
    | nothing => exact .inl rfl
    | emptyMapping => exact .inl rfl
    | emptySequence => exact .inl rfl
    | mixed => exact .inr (.inl rfl)
    | container => exact .inr (.inr ⟨_, _, rfl⟩)

/-! ### Shapes for the same data -/

/-- Two calls that cannot be told apart: they resolve alike for each operation, and so give the same
filter, the same assignments and the same insert, whatever the engine does. -/
structure Interchangeable (a a' : Arguments) : Prop where
  resolve : ∀ operation, a.resolve operation = a'.resolve operation
  filter : Where.ofArguments a = Where.ofArguments a'
  assignments : Assignment.ofArguments a = Assignment.ofArguments a'
  /-- The runs have the same requests, events, result and state afterwards. -/
  insert : ∀ {σ : Type} (db : Database σ) (table : String) (options : InsertOptions) (st : σ),
    db.insert table a options st = db.insert table a' options st

theorem interchangeable_of_resolve {a a' : Arguments}
    (h : ∀ operation, a.resolve operation = a'.resolve operation) : Interchangeable a a' where
  resolve := h
  filter := by simp only [Where.ofArguments, toBindings, h]
  assignments := by simp only [Assignment.ofArguments, toBindings, h]
  insert := by
    intro σ db table options st
    simp only [Database.insert, h]

theorem interchangeable_mapping (b : Bindings) : Interchangeable ⟨[], b⟩ ⟨[.mapping b], []⟩ :=
  interchangeable_of_resolve fun _ => by cases b <;> rfl

theorem interchangeable_sequence (vs : List Value) :
    Interchangeable ⟨vs.map .scalar, []⟩ ⟨[.sequence vs], []⟩ := by
  refine interchangeable_of_resolve fun operation => ?_
  by_cases hv : vs = []
  · subst hv
    rfl
  · rw [resolve_of_resolvesTo (.scalars hv), resolve_of_resolvesTo (.sequence hv)]

/-- **What a call resolves to**, and that nothing tells keywords from one mapping, or values one by
one from one sequence. -/
theorem resolves (operation : String) (args : Arguments) :
    Resolves operation args (args.resolve operation) ∧
      (∀ b, Interchangeable ⟨[], b⟩ ⟨[.mapping b], []⟩) ∧
      ∀ vs : List Value, Interchangeable ⟨vs.map .scalar, []⟩ ⟨[.sequence vs], []⟩ :=
  ⟨resolves_resolve operation args, interchangeable_mapping, interchangeable_sequence⟩

end Arguments

end BoundSql
