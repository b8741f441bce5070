import BoundSql.Proofs.Faults
import BoundSql.Schema.Table

/-!
# Texts of tokens

A token has a text unless there is an empty list somewhere in it (`Token.Hollow`), and that is the
only thing that can be wrong with it (`Token.render_eq_error`).  The same holds of the definition of
a column: it fails if one of its tokens does, whichever it is (`columnDefinition_eq_error`), and
else it is the texts of the tokens ordered by rank (`columnDefinition_of_solid`).
-/

namespace BoundSql

namespace Token

/-- There is an empty list in the token, at any depth of lists and defaults. -/
inductive Hollow : Token → Prop where
  | empty : Hollow (.list [])
  | item {t : Token} {items : List Token} (ht : t ∈ items) (h : Hollow t) : Hollow (.list items)
  | default {t : Token} (h : Hollow t) : Hollow (.default t)

/-- The text of the token, if it has one. -/
def written (t : Token) : String :=
  match t.render with
  | .ok s => s
  | .error _ => ""

theorem written_of_render {t : Token} {s : String} (h : t.render = .ok s) : t.written = s := by
  rw [written, h]

/-- **A token has no text exactly if there is an empty list in it**, and that is the error. -/
theorem render_eq_error {t : Token} {e : Error} :
    t.render = .error e ↔ e = .emptySequence ∧ t.Hollow := by
  induction t generalizing e with
  | list items ih =>
    cases items with
    | nil => exact ⟨fun h => ⟨(Except.error.inj h).symm, .empty⟩, fun h => h.1 ▸ rfl⟩
    | cons t rest =>
      rw [render_list_cons, map_eq_error, mapM_eq_error_iff fun t ht e => ih t ht]
      refine and_congr_right fun _ => ⟨fun h => ?_, fun h => ?_⟩
      · obtain ⟨t, ht, h⟩ := h
        exact .item ht h
      · cases h with
        | item ht h => exact ⟨_, ht, h⟩
  | default t ih =>
    have hdefault : render (.default t) = ("DEFAULT " ++ ·) <$> t.render := by
      rw [render]
      exact (map_eq_pure_bind _ _).symm
    have hhollow : Hollow (.default t) ↔ Hollow t := by
      refine ⟨fun h => ?_, .default⟩
      cases h with
      | default h => exact h
    rw [hdefault, map_eq_error, hhollow, ih]
  | _ =>
    refine ⟨fun h => ?_, fun h => ?_⟩
    · cases h
    · cases h.2

/-- Every other token has a text. -/
theorem render_of_solid {t : Token} (h : ¬t.Hollow) : t.render = .ok t.written := by
  cases hr : t.render with
  | ok s => rw [written_of_render hr]
  | error e => exact absurd (render_eq_error.1 hr).2 h

@[simp] theorem mem_sorted {t : Token} {ts : List Token} : t ∈ sorted ts ↔ t ∈ ts :=
  List.mem_mergeSort

end Token

open Token (render written sorted mem_sorted render_eq_error render_of_solid)

/-- A definition is the texts of the tokens ordered by rank, with spaces in between. -/
theorem columnDefinition_eq_map (ts : List Token) :
    columnDefinition ts = (" ".intercalate ·) <$> (sorted ts).mapM render := by
  rw [columnDefinition, Token.renderAll_eq_mapM]
  exact (map_eq_pure_bind _ _).symm

/-- **A definition fails exactly if there is an empty list in one of its tokens.** -/
theorem columnDefinition_eq_error {ts : List Token} {e : Error} :
    columnDefinition ts = .error e ↔ e = .emptySequence ∧ ∃ t ∈ ts, t.Hollow := by
  rw [columnDefinition_eq_map, map_eq_error, mapM_eq_error_iff fun t _ e => render_eq_error]
  simp only [mem_sorted]

/-- Any other definition is the texts of its tokens ordered by rank. -/
theorem columnDefinition_of_solid {ts : List Token} (h : ∀ t ∈ ts, ¬t.Hollow) :
    columnDefinition ts = .ok (" ".intercalate ((sorted ts).map written)) := by
  have htexts : (sorted ts).mapM render = .ok ((sorted ts).map written) := by
    rw [mapM_eq_ok_iff, List.forall₂_map_right_iff, List.forall₂_same]
    exact fun t ht => render_of_solid (h t (mem_sorted.1 ht))
  rw [columnDefinition_eq_map, htexts]
  rfl

end BoundSql
