import BoundSql.Proofs.Alternation
import BoundSql.Proofs.Mapping

/-!
# Filters from documents

A document with members can become a filter in two ways: as it stands (`Where.ofJson`), or as the
argument of a call (`Where.ofArguments`).  They differ in what an array is: a list of values for a
predicate in the one, a single value, the text of the array, in the other.  An array is longer than
the text of any item (`Value.ofJson_ne_text_singleton`), so no list of values asks for the text of
its own array, and the filters are the same exactly if no member is an array.  `Where.routes` is the
main statement.
-/

namespace BoundSql

/-! ### Texts of arrays -/

namespace Json

/-- The document is a list of others. -/
def IsArray (j : Json) : Prop := ∃ items, j = .array items

theorem escape_ne_nil (c : Char) : escape c ≠ [] := by
  unfold escape
  repeat' split
  all_goals exact List.cons_ne_nil _ _

theorem length_le_flatMap_escape (cs : List Char) : cs.length ≤ (cs.flatMap escape).length := by
  induction cs with
  | nil => simp
  | cons c cs ih =>
    have hc := List.length_pos_iff.2 (escape_ne_nil c)
    simp only [List.flatMap_cons, List.length_append, List.length_cons]
    omega

theorem length_le_quote (s : String) : s.toList.length ≤ (quote s).length := by
  have := length_le_flatMap_escape s.toList
  simp only [quote, List.length_cons, List.length_append]
  omega

theorem toList_text (j : Json) : j.text.toList = compact j := String.toList_ofList

/-- The brackets of an array come on top of its only item. -/
theorem length_text_singleton (j : Json) :
    (text (.array [j])).toList.length = (compact j).length + 2 := by
  simp [toList_text, compact, compactItems]

end Json

/-- **No item has the text of the array that it is alone in.** -/
theorem Value.ofJson_ne_text_singleton (j : Json) :
    Value.ofJson j ≠ .text (Json.text (.array [j])) := by
  intro h
  have hlength := Json.length_text_singleton j
  cases j with
  | null => cases h
  | boolean b => cases h
  | number n =>
    rw [ofJson, ofNumber] at h
    split at h <;> cases h
  | string s =>
    have hs := Json.length_le_quote s
    rw [← Value.text.inj h, Json.compact] at hlength
    omega
  | array _ | object _ =>
    rw [← Value.text.inj h, Json.toList_text] at hlength
    omega

/-! ### Operators -/

/-- What does not begin with a blank still begins with the same character without blanks around. -/
theorem Text.head?_trim {c : Char} (hc : isBlank c = false) (cs : List Char) :
    (trim (c :: cs)).head? = some c := by
  have hleft : trimLeft (c :: cs) = c :: cs := List.dropWhile_cons_of_neg (by simp [hc])
  have hlast : ([c].dropWhile isBlank) = [c] := List.dropWhile_cons_of_neg (by simp [hc])
  rw [trim, hleft, List.reverse_cons, trimLeft, List.dropWhile_append, hlast]
  split <;> simp

/-- No operator begins with a bracket or a brace. -/
theorem Operator.parse?_eq_none {s : String} {c : Char} {cs : List Char} (hs : s.toList = c :: cs)
    (hc : c = '[' ∨ c = '\x7b') : parse? s = none := by
  have hblank : Text.isBlank c = false := by rcases hc with rfl | rfl <;> decide
  have hhead : (Text.trimString s).toList.head? = some c := by
    rw [Text.trimString, String.toList_ofList, hs]
    exact Text.head?_trim hblank cs
  have hnone (o : Operator) : o.sql.toList.head? ≠ some c := by
    rcases hc with rfl | rfl <;> cases o <;> decide
  rw [parse?, List.find?_eq_none]
  intro o _ ho
  rw [beq_iff_eq] at ho
  exact hnone o (ho ▸ hhead)

/-- The text of an array or of an object is no operator. -/
theorem Operator.parse?_text {j : Json} (h : j.IsArray ∨ ∃ members, j = .object members) :
    parse? j.text = none := by
  rcases h with ⟨items, rfl⟩ | ⟨members, rfl⟩
  · cases items <;> exact parse?_eq_none (Json.toList_text _) (.inl rfl)
  · rcases members with _ | ⟨⟨name, j⟩, rest⟩ <;>
      exact parse?_eq_none (Json.toList_text _) (.inr rfl)

/-- A list of values begins with an operator only if the array begins with a string that is one. -/
theorem Predicate.leading?_ofJson {items : List Json}
    (h : ∀ s rest, items = .string s :: rest → Operator.parse? s = none) :
    leading? (items.map Value.ofJson) = none := by
  cases items with
  | nil => rfl
  | cons j rest =>
    cases j with
    | null => rfl
    | boolean b => rfl
    | number n =>
      rw [List.map_cons, Value.ofJson, Value.ofNumber]
      split <;> rfl
    | string s => exact h s rest rfl
    | array items => exact Operator.parse?_text (.inl ⟨items, rfl⟩)
    | object members => exact Operator.parse?_text (.inr ⟨members, rfl⟩)

/-! ### Predicates -/

namespace Predicate

/-- What an array asks for, as a list of values. -/
structure AsksFor (items : List Json) (p : Predicate) : Prop where
  /-- A leading operator applies to the values of the other items. -/
  leading : ∀ s rest o, items = .string s :: rest → Operator.parse? s = some o →
    p = .op o (rest.map Value.ofJson)
  /-- Without one, a value of all items is asked for. -/
  plain : (∀ s rest, items = .string s :: rest → Operator.parse? s = none) →
    p.operator = .eq ∧ p.values = items.map Value.ofJson

theorem asksFor_ofJson (items : List Json) :
    AsksFor items (Where.predicateOfJson (.array items)) where
  leading := by
    rintro s rest o rfl ho
    rw [Where.predicateOfJson, List.map_cons, Value.ofJson, ofValues]
    simp only [ho]
  plain h := operator_ofValues (leading?_ofJson h)

/-- A list of values asks for one value only if there are no others. -/
theorem eq_singleton_of_ofValues {vs : List Value} {v : Value} (h : ofValues vs = .eq v) :
    vs = [v] := by
  unfold ofValues at h
  split at h
  · split at h
    · cases h
    · split at h
      · rename_i hrest
        cases h
        rw [List.isEmpty_iff.1 hrest]
      · cases h
  · cases h
    rfl
  · cases h

/-- **No array is a predicate for its own text**, whatever is in it. -/
theorem ofJson_eq_iff (j : Json) :
    Where.predicateOfJson j = .eq (Value.ofJson j) ↔ ¬j.IsArray := by
  cases j with
  | array items =>
    refine iff_of_false (fun h => ?_) (not_not.2 ⟨items, rfl⟩)
    -- only an array of one item could ask for one value, and that value is not its text
    obtain ⟨k, rfl, hk⟩ := List.map_eq_singleton_iff.1 (eq_singleton_of_ofValues h)
    exact Value.ofJson_ne_text_singleton k hk
  | _ => exact iff_of_true rfl nofun

end Predicate

/-! ### Filters -/

namespace Where

/-- As it stands, a document gives a predicate for each member. -/
theorem ofJson_object (members : List (String × Json)) :
    ofJson (.object members) = if members = [] then .error (.shape "where" .emptyMapping)
      else .ok (.mapping (members.map fun m => (m.1, predicateOfJson m.2))) := by
  cases members <;> rfl

/-- As an argument, it gives a value for each member. -/
theorem ofArguments_object (members : List (String × Json)) :
    ofArguments (.ofJson (.object members)) = if members = [] then .error (.noData "where")
      else .ok (.mapping (members.map fun m => (m.1, .eq (.ofJson m.2)))) := by
  let b : Bindings := members.map fun m => (m.1, .ofJson m.2)
  have hb := (Arguments.binds_mapping b).gives.filter
  simp only [b, List.map_eq_nil_iff, List.map_map, Function.comp_def] at hb
  exact hb

/-- The two ways in which a document with these members becomes a filter. -/
structure Routes (members : List (String × Json)) (document argument : Except Error Where) :
    Prop where
  /-- As it stands, each member is a predicate for the column of its name, in the order of the
  members. -/
  ofDocument : document = if members = [] then .error (.shape "where" .emptyMapping)
    else .ok (.mapping (members.map fun m => (m.1, predicateOfJson m.2)))
  /-- As an argument, each member is a value for the column of its name, in the order of the
  members. -/
  ofArgument : argument = if members = [] then .error (.noData "where")
    else .ok (.mapping (members.map fun m => (m.1, .eq (.ofJson m.2))))
  /-- In the one way an array is a list of values, in the other its text. -/
  array : ∀ items, (predicateOfJson (.array items)).AsksFor items ∧
    Value.ofJson (.array items) = .text (Json.text (.array items))
  /-- Nothing but an array is different in the two ways, and no array is the same. -/
  entry : ∀ j, predicateOfJson j = .eq (.ofJson j) ↔ ¬j.IsArray
  /-- So the filters are the same exactly if there are members and none is an array. -/
  agree : document = argument ↔ members ≠ [] ∧ ∀ m ∈ members, ¬m.2.IsArray

theorem ofJson_eq_ofArguments_iff (members : List (String × Json)) :
    ofJson (.object members) = ofArguments (.ofJson (.object members)) ↔
      members ≠ [] ∧ ∀ m ∈ members, ¬m.2.IsArray := by
  rw [ofJson_object, ofArguments_object]
  by_cases h : members = []
  · simp [h]
  · rw [if_neg h, if_neg h, and_iff_right h, Except.ok.injEq, mapping.injEq, List.map_inj_left]
    refine forall₂_congr fun m _ => ?_
    rw [← Predicate.ofJson_eq_iff, Prod.mk.injEq, eq_self_iff_true, true_and]

/-- **A document is the same filter in both ways exactly if none of its members is an array.**  The
entries of both are the members in their order. -/
theorem routes (members : List (String × Json)) :
    Routes members (ofJson (.object members)) (ofArguments (.ofJson (.object members))) where
  ofDocument := ofJson_object members
  ofArgument := ofArguments_object members
  array items := ⟨Predicate.asksFor_ofJson items, rfl⟩
  entry := Predicate.ofJson_eq_iff
  agree := ofJson_eq_ofArguments_iff members

/-- An array of one string asks for the string in the one way, and for its own text in the other. -/
example :
    let j : Json := .object [("n", .array [.string "x"])]
    ofJson j = .ok (.mapping [("n", .eq (.text "x"))]) ∧
      ofArguments (.ofJson j) = .ok (.mapping [("n", .eq (.text "[\"x\"]"))]) :=
  ⟨by cbv, by cbv⟩

end Where

end BoundSql
