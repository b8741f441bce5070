import BoundSql.Error
import BoundSql.Query.Placeholder
import BoundSql.Value.Json

/-!
# Fragments and statements

A `Fragment` is a piece of SQL text with the values of its placeholders, in order.  Fragments are
put together with `++`, which keeps texts and values in the same order; a `Statement` is a fragment
that stands for itself.  A `Batch` is one text that is run with several rows of values.
-/

namespace BoundSql

/-- A piece of SQL text with the values of its placeholders. -/
structure Fragment where
  script : String
  values : List Value
deriving DecidableEq, Repr

/-- A statement is a fragment that stands for itself. -/
abbrev Statement := Fragment

namespace Fragment

/-- The fragment without text. -/
def empty : Fragment := ⟨"", []⟩

instance : Inhabited Fragment := ⟨empty⟩

instance : Append Fragment where
  append f g := ⟨f.script ++ g.script, f.values ++ g.values⟩

/-- Text without placeholders. -/
def text (s : String) : Fragment := ⟨s, []⟩

/-- A placeholder with its value. -/
def placeholder (v : Value) : Fragment := ⟨"?", [v]⟩

/-- The fragment in parentheses. -/
def parenthesized (f : Fragment) : Fragment := text "(" ++ f ++ text ")"

/-- The fragments with text in between. -/
def joined (separator : String) : List Fragment → Fragment
  | [] => empty
  | [f] => f
  | f :: g :: rest => f ++ text separator ++ joined separator (g :: rest)

/-- The number of placeholders in the text. -/
def placeholders (f : Fragment) : Nat := Placeholder.countIn f.script

/-- There are as many values as placeholders. -/
def isAligned (f : Fragment) : Bool := f.placeholders == f.values.length

/-- The fragment, if it has one value for each placeholder. -/
def checked (clause : String) (f : Fragment) : Except Error Fragment :=
  if f.isAligned then .ok f
  else .error (.clause clause (.misaligned f.placeholders f.values.length))

@[simp] theorem script_append (f g : Fragment) : (f ++ g).script = f.script ++ g.script := rfl

@[simp] theorem values_append (f g : Fragment) : (f ++ g).values = f.values ++ g.values := rfl

@[simp] theorem script_empty : empty.script = "" := rfl

@[simp] theorem values_empty : empty.values = [] := rfl

@[simp] theorem script_text (s : String) : (text s).script = s := rfl

@[simp] theorem values_text (s : String) : (text s).values = [] := rfl

@[simp] theorem script_placeholder (v : Value) : (placeholder v).script = "?" := rfl

theorem ext_iff {f g : Fragment} : f = g ↔ f.script = g.script ∧ f.values = g.values := by
  cases f
  cases g
  simp only [mk.injEq]

@[simp] theorem empty_append (f : Fragment) : empty ++ f = f := by
  simp only [ext_iff, script_append, script_empty, String.empty_append, values_append,
    values_empty, List.nil_append, and_self]

@[simp] theorem append_empty (f : Fragment) : f ++ empty = f := by
  simp only [ext_iff, script_append, script_empty, String.append_empty, values_append,
    values_empty, List.append_nil, and_self]

theorem append_assoc (f g h : Fragment) : f ++ g ++ h = f ++ (g ++ h) := by
  simp only [ext_iff, script_append, String.append_assoc, values_append, List.append_assoc,
    and_self]

theorem values_joined (separator : String) (fs : List Fragment) :
    (joined separator fs).values = fs.flatMap values := by
  induction fs using joined.induct with
  | case1 => rfl
  | case2 f => simp only [joined, List.flatMap_cons, List.flatMap_nil, List.append_nil]
  | case3 f g rest ih =>
    simp only [joined, values_append, values_text, List.append_nil, ih, List.flatMap_cons]

theorem script_joined (separator : String) (fs : List Fragment) :
    (joined separator fs).script = separator.intercalate (fs.map script) := by
  induction fs using joined.induct with
  | case1 => simp only [joined, script_empty, List.map_nil, String.intercalate_nil]
  | case2 f => simp only [joined, List.map_cons, List.map_nil, String.intercalate_singleton]
  | case3 f g rest ih =>
    simp only [joined, script_append, script_text, ih, List.map_cons,
      String.intercalate_cons_cons]

/-- The statement as a document: its text and its values without tags. -/
def toJson (f : Fragment) : Json :=
  .object [("script", .string f.script), ("values", Row.toJson f.values)]

end Fragment

/-- One text that is run once for each row of values. -/
structure Batch where
  script : String
  rows : List Row
deriving DecidableEq, Repr

namespace Batch

/-- The number of placeholders in the text. -/
def placeholders (b : Batch) : Nat := Placeholder.countIn b.script

/-- Every row has as many values as there are placeholders. -/
def isAligned (b : Batch) : Bool := b.rows.all fun row => row.length == b.placeholders

end Batch

end BoundSql
