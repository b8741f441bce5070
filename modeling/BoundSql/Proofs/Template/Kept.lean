import BoundSql.Proofs.Template.Encoding
import Mathlib.Data.List.Flatten

/-!
# What is kept of an entry

The defaults and the checks of a column are members of mappings (`Entry.constraints`).  Of a mapping
only one member is read (`Entry.Reading`), and `Entry.kept` is the entry without the members that
are not: it is read as the same token (`Entry.ofEntry?_kept`), and it is the entry itself exactly if
each mapping has one member (`Entry.kept_eq_self_iff`).
-/

namespace BoundSql

namespace Entry

/-! ### Parts of entries -/

/-- What holds of a list or a mapping if it holds of its parts holds of all entries. -/
@[induction_eliminator]
theorem ind {motive : Entry → Prop} (integer : ∀ i, motive (.integer i))
    (real : ∀ x, motive (.real x)) (text : ∀ s, motive (.text s))
    (list : ∀ items, (∀ e ∈ items, motive e) → motive (.list items))
    (members : ∀ ms, (∀ m ∈ ms, motive m.2) → motive (.members ms)) (other : motive .other)
    (e : Entry) : motive e :=
  @Entry.rec motive (fun items => ∀ e ∈ items, motive e) (fun ms => ∀ m ∈ ms, motive m.2)
    (fun m => motive m.2) integer real text list members other
    (fun _ h => absurd h List.not_mem_nil) (fun _ _ h hs => List.forall_mem_cons.2 ⟨h, hs⟩)
    (fun _ h => absurd h List.not_mem_nil) (fun _ _ h hs => List.forall_mem_cons.2 ⟨h, hs⟩)
    (fun _ _ h => h) e

/-- The member is named as a default or a check. -/
def isConstraint (m : String × Entry) : Bool :=
  m.1 == Token.defaultName || m.1 == Token.checkName

mutual

/-- The defaults and the checks among the members of an entry, at any depth. -/
def constraints : Entry → List (String × Entry)
  | .list items => constraintsOfItems items
  | .members ms => constraintsOfMembers ms
  | _ => []

/-- The defaults and the checks of items. -/
def constraintsOfItems : List Entry → List (String × Entry)
  | [] => []
  | e :: rest => constraints e ++ constraintsOfItems rest

/-- The defaults and the checks among members and of their values. -/
def constraintsOfMembers : List (String × Entry) → List (String × Entry)
  | [] => []
  | (name, e) :: rest =>
    ([(name, e)].filter isConstraint ++ constraints e) ++ constraintsOfMembers rest

end

theorem constraints_list (items : List Entry) :
    constraints (.list items) = items.flatMap constraints := by
  rw [constraints]
  induction items with
  | nil => rfl
  | cons e rest ih => rw [constraintsOfItems, ih, List.flatMap_cons]

theorem constraints_members (ms : List (String × Entry)) :
    constraints (.members ms) = ms.flatMap fun m => [m].filter isConstraint ++ constraints m.2 := by
  rw [constraints]
  induction ms with
  | nil => rfl
  | cons m rest ih => rw [constraintsOfMembers, ih, List.flatMap_cons]

/-- The text of a constraint in a definition, if its value has one. -/
def constraintText? (m : String × Entry) : Option String :=
  if m.1 = Token.defaultName then
    (Token.ofEntry? m.2).bind fun t => t.render.toOption.map fun s => "DEFAULT " ++ s
  else m.2.text?.map fun s => "CHECK (" ++ s ++ ")"

/-- No mapping in the entry has two members, or none. -/
inductive Single : Entry → Prop where
  | integer (i : Int64) : Single (.integer i)
  | real (x : Binary64) : Single (.real x)
  | text (s : String) : Single (.text s)
  | list {items : List Entry} (h : ∀ e ∈ items, Single e) : Single (.list items)
  | members {name : String} {e : Entry} (h : Single e) : Single (.members [(name, e)])
  | other : Single .other

/-- The name of the member that a mapping is read as. -/
def chosenName? (ms : List (String × Entry)) : Option String :=
  match Token.ofEntry? (.members ms) with
  | some (.default _) => some Token.defaultName
  | some _ => some Token.checkName
  | none => none

/-- The members with the name of the one that a mapping is read as. -/
def chosen (ms : List (String × Entry)) : List (String × Entry) :=
  ms.filter fun m => chosenName? ms == some m.1

mutual

/-- The entry with the one member of each mapping that it is read as. -/
def kept : Entry → Entry
  | .list items => .list (keptItems items)
  | .members ms => .members ((keptMembers ms).filter fun m => chosenName? ms == some m.1)
  | e => e

/-- The items with the members that they are read as. -/
def keptItems : List Entry → List Entry
  | [] => []
  | e :: rest => kept e :: keptItems rest

/-- The members with values in which only what is read is kept. -/
def keptMembers : List (String × Entry) → List (String × Entry)
  | [] => []
  | (name, e) :: rest => (name, kept e) :: keptMembers rest

end

theorem kept_list (items : List Entry) : kept (.list items) = .list (items.map kept) := by
  rw [kept]
  congr 1
  induction items with
  | nil => rfl
  | cons e rest ih => rw [keptItems, ih, List.map_cons]

theorem keptMembers_eq_map (ms : List (String × Entry)) :
    keptMembers ms = ms.map fun m => (m.1, kept m.2) := by
  induction ms with
  | nil => rfl
  | cons m rest ih => rw [keptMembers, ih, List.map_cons]

theorem kept_members (ms : List (String × Entry)) :
    kept (.members ms) = .members ((chosen ms).map fun m => (m.1, kept m.2)) := by
  rw [kept, keptMembers_eq_map, List.filter_map]
  rfl

/-! ### The member that is read -/

/-- The only value of a name belongs to its only member. -/
theorem filter_of_valuesOf {name : String} {ms : List (String × Entry)} {e : Entry}
    (h : valuesOf name ms = [e]) : (ms.filter fun m => some name == some m.1) = [(name, e)] := by
  rw [valuesOf, List.map_eq_singleton_iff] at h
  obtain ⟨m, hm, rfl⟩ := h
  have hmem : m ∈ ms.filter fun m => m.1 == name := hm ▸ List.mem_singleton_self m
  have hname : m.1 = name := beq_iff_eq.1 (List.mem_filter.1 hmem).2
  rw [← hname, ← hm]
  refine List.filter_congr fun m' _ => ?_
  rw [← hname, Bool.eq_iff_iff, beq_iff_eq, beq_iff_eq, Option.some.injEq, eq_comm]

theorem mem_of_chosen {ms : List (String × Entry)} {m : String × Entry}
    (h : chosen ms = [m]) : m ∈ ms :=
  List.mem_of_mem_filter (h ▸ List.mem_singleton_self m)

/-- How a mapping is read: as its only default if that has a token, else as its only check if that
is text, else not at all. -/
inductive Reading (ms : List (String × Entry)) : Prop where
  | default {e : Entry} {t : Token}
    (hchosen : chosen ms = [(Token.defaultName, e)]) (he : Token.ofEntry? e = some t)
    (h : Token.ofEntry? (.members ms) = some (.default t))
  | check {s : String}
    (hchosen : chosen ms = [(Token.checkName, .text s)])
    (h : Token.ofEntry? (.members ms) = some (.check s))
  | unread (hchosen : chosen ms = []) (h : Token.ofEntry? (.members ms) = none)

theorem reading (ms : List (String × Entry)) : Reading ms := by
  cases hread : Token.ofEntry? (.members ms) with
  | none =>
    refine .unread ?_ hread
    rw [chosen, chosenName?, hread]
    exact List.filter_eq_nil_iff.2 fun _ _ => Bool.false_ne_true
  | some t =>
    have h := hread
    rw [Token.ofEntry?] at h
    split at h
    · rename_i t' ht
      obtain rfl := Option.some.inj h
      rw [Token.defaultsOf_eq_map, List.map_eq_singleton_iff] at ht
      obtain ⟨e, he, het⟩ := ht
      refine .default ?_ het hread
      rw [chosen, chosenName?, hread]
      exact filter_of_valuesOf he
    · rw [Token.checkOf?] at h
      split at h
      · rename_i s hs
        obtain rfl := Option.some.inj h
        refine .check ?_ hread
        rw [chosen, chosenName?, hread]
        exact filter_of_valuesOf hs
      · cases h

/-- The items of a list that is read are read. -/
theorem exists_ofEntry?_of_list {items : List Entry} {t : Token}
    (h : Token.ofEntry? (.list items) = some t) {e : Entry} (he : e ∈ items) :
    ∃ t, Token.ofEntry? e = some t := by
  rw [Token.ofEntry?_list, Option.map_eq_some_iff] at h
  obtain ⟨ts, hts, -⟩ := h
  have hall := mapM_eq_some_iff.1 hts
  obtain ⟨i, hi, rfl⟩ := List.mem_iff_get.1 he
  exact ⟨_, hall.get i.isLt (hall.length_eq ▸ i.isLt)⟩

/-- A mapping that is read is read as the one member that is kept of it. -/
theorem ofEntry?_kept (e : Entry) : Token.ofEntry? e.kept = Token.ofEntry? e := by
  induction e with
  | list items ih =>
    have hid (f : Entry → Option Token) : items.mapM f = (items.map f).mapM id := by
      rw [List.mapM_map, Function.id_comp]
    have hitems : items.map (Token.ofEntry? ∘ kept) = items.map Token.ofEntry? :=
      List.map_congr_left ih
    rw [kept_list, Token.ofEntry?_list, Token.ofEntry?_list, List.mapM_map, hid, hid, hitems]
  | members ms ih =>
    rw [kept_members]
    cases reading ms with
    | @default e t hchosen he h =>
      rw [hchosen, h]
      exact Token.ofEntry?_default ((ih _ (mem_of_chosen hchosen)).trans he)
    | check hchosen h =>
      rw [hchosen, h]
      rfl
    | unread hchosen h =>
      rw [hchosen, h]
      rfl
  | _ => rfl

/-- In what is kept of an entry that is read, every mapping has one member. -/
theorem single_kept {e : Entry} {t : Token} (h : Token.ofEntry? e = some t) : e.kept.Single := by
  induction e generalizing t with
  | integer i => exact .integer i
  | real x => exact .real x
  | text s => exact .text s
  | other => exact .other
  | list items ih =>
    rw [kept_list]
    refine .list (List.forall_mem_map.2 fun e he => ?_)
    obtain ⟨t, ht⟩ := exists_ofEntry?_of_list h he
    exact ih e he ht
  | members ms ih =>
    rw [kept_members]
    cases reading ms with
    | @default e t hchosen he h =>
      rw [hchosen]
      exact .members (ih _ (mem_of_chosen hchosen) he)
    | @check s hchosen h =>
      rw [hchosen]
      exact .members (.text s)
    | unread hchosen hnone => cases h.symm.trans hnone

/-- Everything is kept of an entry that is read exactly if each of its mappings has one member. -/
theorem kept_eq_self_iff {e : Entry} {t : Token} (h : Token.ofEntry? e = some t) :
    e.kept = e ↔ e.Single := by
  refine ⟨fun he => he ▸ single_kept h, fun hs => ?_⟩
  induction hs generalizing t with
  | list _ ih =>
    rw [kept_list]
    refine congrArg Entry.list ((List.map_congr_left fun e he => ?_).trans (List.map_id _))
    obtain ⟨t, ht⟩ := exists_ofEntry?_of_list h he
    exact ih e he ht
  | @members name e _ ih =>
    rw [kept_members]
    cases reading [(name, e)] with
    | @default e' t hchosen he h =>
      cases List.mem_singleton.1 (mem_of_chosen hchosen)
      rw [hchosen, List.map_singleton, ih he]
    | @check s hchosen h =>
      cases List.mem_singleton.1 (mem_of_chosen hchosen)
      rw [hchosen]
      rfl
    | unread hchosen hnone => cases h.symm.trans hnone
  | _ => rfl

theorem constraintText?_kept (name : String) (e : Entry) :
    constraintText? (name, e.kept) = constraintText? (name, e) := by
  have htext : e.kept.text? = e.text? := by cases e <;> rfl
  simp only [constraintText?, ofEntry?_kept, htext]

/-- What is kept of an entry has some of its constraints, with the texts that they have. -/
theorem constraintText?_kept_sublist (e : Entry) :
    (e.kept.constraints.map constraintText?).Sublist (e.constraints.map constraintText?) := by
  induction e with
  | list items ih =>
    rw [kept_list, constraints_list, constraints_list, List.flatMap_map, List.map_flatMap,
      List.map_flatMap]
    exact List.Sublist.flatMap_right items ih
  | members ms ih =>
    rw [kept_members, constraints_members, constraints_members, List.flatMap_map, List.map_flatMap,
      List.map_flatMap]
    refine .trans (List.Sublist.flatMap List.filter_sublist _) (.flatMap_right ms fun m hm => ?_)
    rw [List.map_append, List.map_append]
    refine .append ?_ (ih m hm)
    have hname : isConstraint (m.1, m.2.kept) = isConstraint m := rfl
    rw [List.filter_singleton, List.filter_singleton, hname]
    cases isConstraint m with
    | false => exact .refl _
    | true =>
      rw [cond_true, cond_true, List.map_singleton, List.map_singleton, constraintText?_kept]
  | _ => exact .refl _

end Entry

end BoundSql
