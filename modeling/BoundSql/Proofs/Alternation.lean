import BoundSql.Proofs.Shapes

/-!
# Columns and values in turn

A list of values can stand for bindings: columns and values in turn.  `Bindings.ofPairs` reads such
a list, `Bindings.flatten` writes it, and each undoes the other.  What cannot be read has odd length,
or a value that is no text in the place of a column.  `Bindings.alternates` is the main statement:
what is read, what is refused and why, and that for a filter or for assignments it does not matter
whether bindings are given as a mapping or as columns and values in turn.
-/

namespace BoundSql

/-- The value can be the name of a column. -/
def Value.IsText (v : Value) : Prop := ∃ s, v = .text s

namespace Bindings

/-! ### Writing -/

theorem flatten_cons (column : String) (v : Value) (b : Bindings) :
    flatten ((column, v) :: b) = .text column :: v :: flatten b := rfl

theorem length_flatten (b : Bindings) : (flatten b).length = 2 * b.length := by
  induction b with
  | nil => rfl
  | cons e b ih =>
    obtain ⟨column, v⟩ := e
    simp only [flatten_cons, List.length_cons, ih]
    omega

/-- The columns have the even places. -/
theorem isText_of_getElem?_flatten {b : Bindings} {i : Nat} (hi : i % 2 = 0) {v : Value}
    (h : (flatten b)[i]? = some v) : v.IsText := by
  induction b generalizing i with
  | nil => simp [flatten] at h
  | cons e b ih =>
    obtain ⟨column, w⟩ := e
    match i with
    | 0 => exact ⟨column, (Option.some.inj h).symm⟩
    | 1 => omega
    | i + 2 => exact ih (by omega) h

/-! ### Reading -/

theorem pairUp_flatten (operation : String) (b : Bindings) :
    pairUp operation (flatten b) = .ok b := by
  induction b with
  | nil => rfl
  | cons e b ih =>
    obtain ⟨column, v⟩ := e
    simp only [flatten_cons, pairUp, ih]
    rfl

/-- The first value that is no column is refused, whatever follows it. -/
theorem pairUp_flatten_append (operation : String) (b : Bindings) {v : Value} (hv : ¬v.IsText)
    (w : Value) (rest : List Value) :
    pairUp operation (flatten b ++ v :: w :: rest) =
      .error (.shape operation (.notColumn v.kind)) := by
  induction b with
  | nil =>
    cases v with
    | text s => exact absurd ⟨s, rfl⟩ hv
    | _ => rfl
  | cons e b ih =>
    obtain ⟨column, u⟩ := e
    simp only [flatten_cons, List.cons_append, pairUp, ih]
    rfl

/-- A list of even length is written from bindings, or there is a first value in the place of a
column that is none. -/
theorem flatten_or_first (vs : List Value) (h : vs.length % 2 = 0) :
    (∃ b, vs = flatten b) ∨
      ∃ b v w rest, vs = flatten b ++ v :: w :: rest ∧ ¬v.IsText :=
  -- a column and its value at a time, so what is left has even length as well
  match vs, h with
  | [], _ => .inl ⟨[], rfl⟩
  | v :: w :: rest, h => by
    have hrest : rest.length % 2 = 0 := by
      simp only [List.length_cons] at h
      omega
    by_cases hv : v.IsText
    · obtain ⟨column, rfl⟩ := hv
      rcases flatten_or_first rest hrest with ⟨b, rfl⟩ | ⟨b, u, u', more, rfl, hu⟩
      · exact .inl ⟨(column, w) :: b, rfl⟩
      · exact .inr ⟨(column, w) :: b, u, u', more, rfl, hu⟩
    · exact .inr ⟨[], v, w, rest, rfl, hv⟩

theorem ofPairs_of_odd (operation : String) {vs : List Value} (h : vs.length % 2 = 1) :
    ofPairs operation vs = .error (.shape operation (.oddLength vs.length)) := if_pos h

theorem ofPairs_of_even (operation : String) {vs : List Value} (h : vs.length % 2 = 0) :
    ofPairs operation vs = pairUp operation vs := if_neg (by omega)

/-- **What was written is read**, columns that occur more than once included. -/
theorem ofPairs_flatten (operation : String) (b : Bindings) :
    ofPairs operation (flatten b) = .ok b := by
  have heven : (flatten b).length % 2 = 0 := by
    rw [length_flatten]
    omega
  rw [ofPairs_of_even operation heven, pairUp_flatten]

/-- The value is the first one in the place of a column that is none. -/
def Misplaced (vs : List Value) (v : Value) : Prop :=
  ∃ i, i % 2 = 0 ∧ vs[i]? = some v ∧ ¬v.IsText ∧
    ∀ j u, j < i → j % 2 = 0 → vs[j]? = some u → u.IsText

/-- There is only one first value. -/
theorem Misplaced.eq {vs : List Value} {u v : Value} (hu : Misplaced vs u) (hv : Misplaced vs v) :
    u = v := by
  obtain ⟨i, hi, hiu, hnu, hbu⟩ := hu
  obtain ⟨j, hj, hjv, hnv, hbv⟩ := hv
  rcases Nat.lt_trichotomy i j with h | rfl | h
  · exact absurd (hbv i u h hi hiu) hnu
  · exact Option.some.inj (hiu.symm.trans hjv)
  · exact absurd (hbu j v h hj hjv) hnv

/-- In what was written from bindings, every column is in its place. -/
theorem not_misplaced_flatten (b : Bindings) (v : Value) : ¬Misplaced (flatten b) v := by
  rintro ⟨i, hi, hv, hno, -⟩
  exact hno (isText_of_getElem?_flatten hi hv)

theorem misplaced_flatten_append (b : Bindings) {v : Value} (hv : ¬v.IsText) (rest : List Value) :
    Misplaced (flatten b ++ v :: rest) v := by
  have hlength := length_flatten b
  refine ⟨2 * b.length, by omega, ?_, hv, ?_⟩
  · simp [hlength]
  · intro j u hj hplace hu
    rw [List.getElem?_append_left (by omega)] at hu
    exact isText_of_getElem?_flatten hplace hu

/-- What a list of values is read as. -/
structure Reads (operation : String) (vs : List Value) (r : Except Error Bindings) : Prop where
  /-- A list is read if it has even length and a text in each place of a column. -/
  accepted : (∃ b, r = .ok b) ↔
    vs.length % 2 = 0 ∧ ∀ i v, i % 2 = 0 → vs[i]? = some v → v.IsText
  /-- It is read as the bindings that write it, and as no others. -/
  written : ∀ b, r = .ok b ↔ flatten b = vs
  /-- A list of odd length is refused, whatever is in it. -/
  oddLength : ∀ n, r = .error (.shape operation (.oddLength n)) ↔
    vs.length % 2 = 1 ∧ n = vs.length
  /-- In a list of even length, the first value that is no column is refused. -/
  notColumn : ∀ kind, r = .error (.shape operation (.notColumn kind)) ↔
    vs.length % 2 = 0 ∧ ∃ v, Misplaced vs v ∧ kind = v.kind
  /-- There are no other errors. -/
  errors : ∀ e, r = .error e → (∃ n, e = .shape operation (.oddLength n)) ∨
    ∃ kind, e = .shape operation (.notColumn kind)
  /-- The words are about the length if that is odd, and else about the kind of the value. -/
  message : ∀ e, r = .error e →
    if vs.length % 2 = 1 then e.message = operation ++ ": " ++
      ("alternating column/value list has odd length " ++ toString vs.length)
    else ∃ v, Misplaced vs v ∧
      e.message = operation ++ ": " ++ ("expected a column name, got " ++ v.kind)

theorem reads_of_odd (operation : String) {vs : List Value} (h : vs.length % 2 = 1) :
    Reads operation vs (.error (.shape operation (.oddLength vs.length))) where
  accepted := by simp [h]
  written := by
    intro b
    refine iff_of_false nofun ?_
    rintro rfl
    rw [length_flatten] at h
    omega
  oddLength := by
    intro n
    simp [h, eq_comm]
  notColumn := by simp [h]
  errors := by
    intro e he
    exact .inl ⟨_, (Except.error.inj he).symm⟩
  message := by
    intro e he
    cases he
    rw [if_pos h]
    rfl

theorem reads_flatten (operation : String) (b : Bindings) :
    Reads operation (flatten b) (.ok b) where
  accepted := by
    refine iff_of_true ⟨b, rfl⟩ ⟨?_, fun i v hi hv => isText_of_getElem?_flatten hi hv⟩
    rw [length_flatten]
    omega
  written := by
    intro b'
    constructor
    · intro h
      rw [Except.ok.inj h]
    · intro h
      -- one list is not read in two ways
      rw [← pairUp_flatten operation b, ← h, pairUp_flatten]
  oddLength := by
    intro n
    refine iff_of_false nofun ?_
    rw [length_flatten]
    omega
  notColumn := by
    intro kind
    refine iff_of_false nofun ?_
    rintro ⟨-, v, hv, -⟩
    exact not_misplaced_flatten b v hv
  errors := by
    intro e he
    cases he
  message := by
    intro e he
    cases he

theorem reads_of_misplaced (operation : String) {vs : List Value} (heven : vs.length % 2 = 0)
    {v : Value} (hv : Misplaced vs v) :
    Reads operation vs (.error (.shape operation (.notColumn v.kind))) where
  accepted := by
    refine iff_of_false nofun ?_
    rintro ⟨-, h⟩
    obtain ⟨i, hi, hiv, hno, -⟩ := hv
    exact hno (h i v hi hiv)
  written := by
    intro b
    refine iff_of_false nofun ?_
    rintro rfl
    exact not_misplaced_flatten b v hv
  oddLength := by
    intro n
    refine iff_of_false nofun ?_
    omega
  notColumn := by
    intro kind
    constructor
    · intro h
      cases h
      exact ⟨heven, v, hv, rfl⟩
    · rintro ⟨-, u, hu, rfl⟩
      rw [hv.eq hu]
  errors := by
    intro e he
    exact .inr ⟨_, (Except.error.inj he).symm⟩
  message := by
    intro e he
    cases he
    rw [if_neg (by omega)]
    exact ⟨v, hv, rfl⟩

theorem reads_ofPairs (operation : String) (vs : List Value) :
    Reads operation vs (ofPairs operation vs) := by
  rcases Nat.mod_two_eq_zero_or_one vs.length with heven | hodd
  · rcases flatten_or_first vs heven with ⟨b, rfl⟩ | ⟨b, v, w, rest, rfl, hv⟩
    · rw [ofPairs_flatten]
      exact reads_flatten operation b
    · rw [ofPairs_of_even operation heven, pairUp_flatten_append operation b hv]
      exact reads_of_misplaced operation heven (misplaced_flatten_append b hv (w :: rest))
  · rw [ofPairs_of_odd operation hodd]
    exact reads_of_odd operation hodd

end Bindings

/-! ### Forms of one call -/

namespace Arguments

/-- The data of the call are these bindings, for every operation; without a binding there are no
data. -/
def Binds (args : Arguments) (b : Bindings) : Prop :=
  ∀ operation, args.toBindings operation = if b = [] then .error (.noData operation) else .ok b

theorem binds_mapping (b : Bindings) : Binds ⟨[.mapping b], []⟩ b := by
  intro operation
  cases b <;> rfl

theorem binds_sequence (b : Bindings) : Binds ⟨[.sequence b.flatten], []⟩ b := by
  intro operation
  cases b with
  | nil => rfl
  | cons e b =>
    have hne : Bindings.flatten (e :: b) ≠ [] := by simp [Bindings.flatten]
    rw [toBindings, resolve_of_resolvesTo (.sequence hne), if_neg (List.cons_ne_nil e b)]
    exact Bindings.ofPairs_flatten operation (e :: b)

/-- Values one by one are read as one sequence is. -/
theorem binds_scalars (b : Bindings) : Binds ⟨b.flatten.map .scalar, []⟩ b := by
  intro operation
  rw [toBindings, (interchangeable_sequence b.flatten).resolve operation]
  exact binds_sequence b operation

/-- The call gives the filter and the assignments of these bindings. -/
structure Gives (args : Arguments) (b : Bindings) : Prop where
  filter : Where.ofArguments args =
    if b = [] then .error (.noData "where") else .ok (.mapping (b.map fun e => (e.1, .eq e.2)))
  assignments : Assignment.ofArguments args =
    if b = [] then .error (.noData "update") else .ok (b.map fun e => ⟨e.1, .value e.2⟩)

theorem Binds.gives {args : Arguments} {b : Bindings} (h : args.Binds b) : args.Gives b where
  filter := by
    rw [Where.ofArguments, h]
    split <;> rfl
  assignments := by
    rw [Assignment.ofArguments, h]
    split <;> rfl

end Arguments

/-- **Columns and values in turn are bindings.**  A list of values is read as the bindings that
write it, if there are any, and a call is about the same bindings whether they are given as a
sequence of columns and values, as columns and values one by one, or as a mapping. -/
theorem Bindings.alternates (operation : String) (vs : List Value) (b : Bindings) :
    Reads operation vs (ofPairs operation vs) ∧ ofPairs operation b.flatten = .ok b ∧
      Arguments.Gives ⟨[.sequence b.flatten], []⟩ b ∧
      Arguments.Gives ⟨b.flatten.map .scalar, []⟩ b ∧ Arguments.Gives ⟨[.mapping b], []⟩ b :=
  ⟨reads_ofPairs operation vs, ofPairs_flatten operation b, (Arguments.binds_sequence b).gives,
    (Arguments.binds_scalars b).gives, (Arguments.binds_mapping b).gives⟩

/-- A text in the place of a value is no column. -/
example : Bindings.ofPairs "update" [.text "a", .text "b", .null, .integer 1] =
    .error (.shape "update" (.notColumn "null")) :=
  rfl

end BoundSql
