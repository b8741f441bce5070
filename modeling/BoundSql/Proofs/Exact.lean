import BoundSql.Query.Fragment
import Mathlib.Tactic.SplitIfs

/-!
# Exact fragments

The scanner that counts placeholders keeps a state, so the placeholders of a text depend on what
stands in front of it.  A fragment is *exact* if scanning it from outside quotes ends outside quotes
and counts as many placeholders as it has values; a text is *neutral* if it is exact without values.
What is put together from exact fragments is exact (`Fragment.Exact.append`,
`Fragment.Exact.joined`), and in front of each part of it the placeholders and the values agree in
number.
-/

namespace BoundSql

namespace Placeholder

/-- A text that the scanner leaves outside quotes, without a placeholder. -/
structure Neutral (s : String) : Prop where
  closed : after none s.toList = none
  unmarked : count none s.toList = 0

instance (s : String) : Decidable (Neutral s) :=
  decidable_of_iff (after none s.toList = none ∧ count none s.toList = 0)
    ⟨fun h => ⟨h.1, h.2⟩, fun h => ⟨h.closed, h.unmarked⟩⟩

/-- A text without quotes leaves the scanner outside quotes. -/
theorem after_of_no_quote {s : List Char} (h : ∀ c ∈ s, closing? c = none) :
    after none s = none := by
  induction s with
  | nil => rfl
  | cons c s ih =>
    have hc : step none c = none := h c List.mem_cons_self
    rw [after_cons, hc]
    exact ih fun d hd => h d (List.mem_cons_of_mem c hd)

theorem count_of_no_mark {s : List Char} (h : ∀ c ∈ s, c ≠ mark) (state : Option Char) :
    count state s = 0 := by
  induction s generalizing state with
  | nil => rfl
  | cons c s ih =>
    have hc : c ≠ mark := h c List.mem_cons_self
    simp only [count, hc, and_false, if_false, Nat.zero_add]
    exact ih (fun d hd => h d (List.mem_cons_of_mem c hd)) _

theorem closing?_of_isDigit {c : Char} (h : c.isDigit = true) : closing? c = none := by
  unfold closing?
  split_ifs with hq hb
  · rcases hq with rfl | rfl | rfl <;> exact absurd h (by decide)
  · subst hb
    exact absurd h (by decide)
  · rfl

/-- The digits of a number are neutral. -/
theorem neutral_toString (n : Nat) : Neutral (toString n) := by
  have hd : ∀ c ∈ (toString n).toList, c.isDigit = true := by
    intro c hc
    rw [Nat.toString_eq_ofList_toDigits, String.toList_ofList] at hc
    exact Nat.isDigit_of_mem_toDigits (by decide) (by decide) hc
  refine ⟨after_of_no_quote fun c hc => closing?_of_isDigit (hd c hc), ?_⟩
  refine count_of_no_mark (fun c hc hm => ?_) none
  have := hd c hc
  rw [hm] at this
  exact absurd this (by decide)

end Placeholder

namespace Fragment

/-- A fragment that the scanner leaves outside quotes, with one value for each placeholder. -/
structure Exact (f : Fragment) : Prop where
  closed : Placeholder.after none f.script.toList = none
  counted : f.placeholders = f.values.length

instance (f : Fragment) : Decidable f.Exact :=
  decidable_of_iff
    (Placeholder.after none f.script.toList = none ∧ f.placeholders = f.values.length)
    ⟨fun h => ⟨h.1, h.2⟩, fun h => ⟨h.closed, h.counted⟩⟩

theorem Exact.isAligned {f : Fragment} (h : f.Exact) : f.isAligned = true := by
  rw [Fragment.isAligned, h.counted, beq_self_eq_true]

theorem Exact.checked {f : Fragment} (h : f.Exact) (clause : String) :
    f.checked clause = .ok f := by
  rw [Fragment.checked, if_pos h.isAligned]

theorem exact_empty : empty.Exact := ⟨rfl, rfl⟩

theorem exact_text {s : String} (h : Placeholder.Neutral s) : (text s).Exact :=
  ⟨h.closed, h.unmarked⟩

theorem neutral_of_exact_text {s : String} (h : (text s).Exact) : Placeholder.Neutral s :=
  ⟨h.closed, h.counted⟩

theorem exact_placeholder (v : Value) : (placeholder v).Exact where
  closed := show Placeholder.after none "?".toList = none by decide
  counted := show Placeholder.countIn "?" = 1 by decide

/-- **Exact fragments in a row are exact.** -/
theorem Exact.append {f g : Fragment} (hf : f.Exact) (hg : g.Exact) : (f ++ g).Exact := by
  have h := hf.counted
  have h' := hg.counted
  simp only [placeholders, Placeholder.countIn] at h h'
  constructor
  · rw [script_append, String.toList_append, Placeholder.after_append, hf.closed, hg.closed]
  · -- the second part is scanned from where the first one leaves off, which is outside quotes
    rw [placeholders, Placeholder.countIn, script_append, String.toList_append,
      Placeholder.count_append, hf.closed, h, h', values_append, List.length_append]

theorem Exact.parenthesized {f : Fragment} (hf : f.Exact) : f.parenthesized.Exact :=
  ((exact_text (by decide)).append hf).append (exact_text (by decide))

theorem Exact.joined {separator : String} (hs : Placeholder.Neutral separator)
    {fs : List Fragment} (h : ∀ f ∈ fs, f.Exact) : (Fragment.joined separator fs).Exact := by
  induction fs using Fragment.joined.induct with
  | case1 => exact exact_empty
  | case2 f => exact h f List.mem_cons_self
  | case3 f g rest ih =>
    have hf := h f List.mem_cons_self
    exact (hf.append (exact_text hs)).append (ih fun e he => h e (List.mem_cons_of_mem f he))

theorem text_intercalate (separator : String) (ss : List String) :
    text (separator.intercalate ss) = Fragment.joined separator (ss.map text) := by
  rw [Fragment.ext_iff]
  constructor
  · rw [script_joined, List.map_map, script_text]
    congr 1
    exact (List.map_id ss).symm
  · rw [values_joined, values_text, List.flatMap_map]
    exact (List.flatMap_eq_nil_iff.2 fun _ _ => rfl).symm

end Fragment

namespace Placeholder

theorem Neutral.append {s t : String} (hs : Neutral s) (ht : Neutral t) : Neutral (s ++ t) :=
  Fragment.neutral_of_exact_text ((Fragment.exact_text hs).append (Fragment.exact_text ht))

theorem Neutral.intercalate {separator : String} (hs : Neutral separator) {ss : List String}
    (h : ∀ s ∈ ss, Neutral s) : Neutral (separator.intercalate ss) := by
  apply Fragment.neutral_of_exact_text
  rw [Fragment.text_intercalate]
  refine Fragment.Exact.joined hs fun f hf => ?_
  obtain ⟨s, hs', rfl⟩ := List.mem_map.1 hf
  exact Fragment.exact_text (h s hs')

/-- A list of placeholders, with a value for each. -/
theorem exact_list (values : List Value) : Fragment.Exact ⟨list values.length, values⟩ := by
  have h : (⟨list values.length, values⟩ : Fragment) =
      Fragment.joined ", " (values.map Fragment.placeholder) := by
    rw [Fragment.ext_iff, Fragment.script_joined, Fragment.values_joined, List.map_map,
      List.flatMap_map]
    refine ⟨?_, ?_⟩
    · change list values.length = ", ".intercalate (values.map fun _ => "?")
      rw [list, List.map_const']
    · exact (List.flatMap_singleton' values).symm
  rw [h]
  refine Fragment.Exact.joined (by decide) fun f hf => ?_
  obtain ⟨v, -, rfl⟩ := List.mem_map.1 hf
  exact Fragment.exact_placeholder v

end Placeholder

end BoundSql
