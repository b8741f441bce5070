import BoundSql.Proofs.Column.Words
import Mathlib.Data.List.Permutation

/-!
# Tokens in lists of their own

A list of one token has the text of the token (`Token.render_nested`), but not its rank: every list
is ranked with the types, whatever there is in it.  So types can be put in lists of their own, as
deep as one likes (`Token.columnDefinition_nestedTypes`).  A constraint that is put in one comes
before tokens that it belongs behind (`Token.passed`), the type among them if that is given later.
`Token.nesting` is the main statement: it says what the definition of the column is then, and when
it is the same as without the list.
-/

namespace BoundSql

namespace Token

/-- The token in a list of its own, that list in a list of its own, and so on. -/
def nested : Nat → Token → Token
  | 0, t => t
  | n + 1, t => .list [nested n t]

/-- The tokens that a token of rank `r` comes before if it is in a list of its own, and behind if it
is not.  The tokens `pre` are given before it, the tokens `post` after it. -/
def passed (r : Nat) (pre post : List Token) : List Token :=
  sorted ((pre.filter fun u => 0 < u.rank && u.rank ≤ r) ++ post.filter fun u => u.rank < r)

/-- The tokens that a token of rank `r` comes before in any case. -/
def behind (r : Nat) (pre post : List Token) : List Token :=
  sorted ((pre.filter fun u => r < u.rank) ++ post.filter fun u => r ≤ u.rank)

/-! ### Texts -/

theorem render_nested (n : Nat) (t : Token) : (nested n t).render = t.render := by
  induction n with
  | zero => rfl
  | succ n ih =>
    rw [nested, render_list_cons, List.mapM_cons, List.mapM_nil, ih]
    cases t.render with
    | error e => rfl
    | ok s => exact congrArg Except.ok String.intercalate_singleton

theorem hollow_nested (n : Nat) (t : Token) : (nested n t).Hollow ↔ t.Hollow := by
  have hrender (u : Token) : u.Hollow ↔ u.render = .error .emptySequence := by
    rw [render_eq_error, eq_self_iff_true, true_and]
  rw [hrender, render_nested, ← hrender]

theorem written_nested (n : Nat) (t : Token) : (nested n t).written = t.written := by
  simp only [written, render_nested]

/-! ### Places -/

theorem ofRank_passed (q r : Nat) (pre post : List Token) :
    ofRank q (passed r pre post) = (if 0 < q ∧ q ≤ r then ofRank q pre else []) ++
      if q < r then ofRank q post else [] := by
  rw [passed, sameByRank_sorted, ofRank_append, ofRank_filter fun q => 0 < q && q ≤ r,
    ofRank_filter fun q => q < r]
  simp only [Bool.and_eq_true, decide_eq_true_eq]

theorem ofRank_behind (q r : Nat) (pre post : List Token) :
    ofRank q (behind r pre post) = (if r < q then ofRank q pre else []) ++
      if r ≤ q then ofRank q post else [] := by
  rw [behind, sameByRank_sorted, ofRank_append, ofRank_filter fun q => r < q,
    ofRank_filter fun q => r ≤ q]
  simp only [decide_eq_true_eq]

/-- What comes before a token of rank `r` is all of lower rank, and of its own rank what is given
before it. -/
theorem ofRank_front (q r : Nat) (pre post : List Token) :
    ofRank q (ofRank 0 pre ++ passed r pre post) =
      (if q ≤ r then ofRank q pre else []) ++ if q < r then ofRank q post else [] := by
  rw [ofRank_append, ofRank_ofRank, ofRank_passed]
  rcases q.eq_zero_or_pos with rfl | hq
  · simp only [if_pos, Nat.lt_irrefl, false_and, if_false, List.nil_append, Nat.zero_le]
  · simp only [if_neg hq.ne', List.nil_append, hq, true_and]

/-- Nothing is left out but the tokens of rank 0 that are given before. -/
theorem ofRank_passed_append_behind (q r : Nat) (pre post : List Token) :
    ofRank q (passed r pre post ++ behind r pre post) =
      (if 0 < q then ofRank q pre else []) ++ ofRank q post := by
  rw [ofRank_append, ofRank_passed, ofRank_behind]
  rcases Nat.lt_trichotomy q r with h | rfl | h
  · simp only [h, h.le, h.not_ge, h.not_gt, and_true, if_true, if_false, List.append_nil]
  · simp only [Nat.lt_irrefl, Nat.le_refl, and_true, if_true, if_false, List.append_nil,
      List.nil_append]
  · have hq : 0 < q := Nat.zero_lt_of_lt h
    simp only [h, h.le, h.not_ge, h.not_gt, hq, and_false, if_true, if_false, List.nil_append]

theorem rank_of_mem_passed {r : Nat} {u : Token} {pre post : List Token}
    (hu : u ∈ passed r pre post) : u.rank ≤ r := by
  simp only [passed, mem_sorted, List.mem_append, List.mem_filter, Bool.and_eq_true,
    decide_eq_true_eq] at hu
  omega

theorem rank_of_mem_behind {r : Nat} {u : Token} {pre post : List Token}
    (hu : u ∈ behind r pre post) : r ≤ u.rank := by
  simp only [behind, mem_sorted, List.mem_append, List.mem_filter, decide_eq_true_eq] at hu
  omega

theorem ranked_append_cons (pre post : List Token) (t : Token) :
    Ranked (ofRank 0 pre ++ (passed t.rank pre post ++ t :: behind t.rank pre post)) := by
  have hbehind : Ranked (t :: behind t.rank pre post) :=
    List.pairwise_cons.2 ⟨fun u hu => rank_of_mem_behind hu, ranked_sorted _⟩
  have hpassed : Ranked (passed t.rank pre post ++ t :: behind t.rank pre post) :=
    (ranked_sorted _).append hbehind (fun u hu => rank_of_mem_passed hu)
      (List.forall_mem_cons.2 ⟨Nat.le_refl _, fun u hu => rank_of_mem_behind hu⟩)
  exact (ranked_ofRank 0 pre).append hpassed (fun u hu => (mem_ofRank.1 hu).2.le)
    fun u _ => Nat.zero_le _

theorem ranked_append_nested (r n : Nat) (pre post : List Token) (t : Token) :
    Ranked (ofRank 0 pre ++ nested (n + 1) t :: (passed r pre post ++ behind r pre post)) := by
  have hrest : Ranked (passed r pre post ++ behind r pre post) :=
    (ranked_sorted _).append (ranked_sorted _) (fun u hu => rank_of_mem_passed hu)
      fun u hu => rank_of_mem_behind hu
  exact (ranked_ofRank 0 pre).append (List.pairwise_cons.2 ⟨fun u _ => Nat.zero_le _, hrest⟩)
    (fun u hu => (mem_ofRank.1 hu).2.le) fun u _ => Nat.zero_le _

/-- **The place of a token**: it is behind the tokens that it would pass. -/
theorem sorted_append_cons (pre post : List Token) (t : Token) :
    sorted (pre ++ t :: post) =
      ofRank 0 pre ++ (passed t.rank pre post ++ t :: behind t.rank pre post) := by
  refine sorted_eq ?_ fun q => ?_
  · exact ranked_append_cons pre post t
  · rw [← List.append_assoc, ofRank_append, ofRank_front, ofRank_append, ofRank_cons, ofRank_cons,
      ofRank_behind]
    rcases Nat.lt_trichotomy q t.rank with h | rfl | h
    · simp only [h, h.le, h.ne', h.not_ge, h.not_gt, if_true, if_false, List.append_nil]
    · simp only [Nat.lt_irrefl, Nat.le_refl, if_true, if_false, List.append_nil, List.nil_append]
    · simp only [h, h.le, h.ne, h.not_ge, h.not_gt, if_true, if_false, List.nil_append]

/-- **The place of a token in a list of its own**: it is before the tokens that it passes, whichever
rank these are measured by. -/
theorem sorted_append_nested (r n : Nat) (pre post : List Token) (t : Token) :
    sorted (pre ++ nested (n + 1) t :: post) =
      ofRank 0 pre ++ nested (n + 1) t :: (passed r pre post ++ behind r pre post) := by
  refine sorted_eq (ranked_append_nested r n pre post t) fun q => ?_
  have hrank : (nested (n + 1) t).rank = 0 := rfl
  rw [ofRank_append, ofRank_cons, ofRank_append q pre, ofRank_cons, ofRank_passed_append_behind,
    ofRank_ofRank, hrank]
  rcases q.eq_zero_or_pos with rfl | hq
  · simp only [Nat.lt_irrefl, if_true, if_false, List.nil_append]
  · simp only [hq, hq.ne, hq.ne', if_true, if_false, List.nil_append]

/-! ### Definitions -/

/-- Texts that differ in the middle only are the same if the middles are. -/
theorem intercalate_inj {sep : String} {as xs ys bs : List String} (hxs : xs ≠ []) (hys : ys ≠ []) :
    sep.intercalate (as ++ (xs ++ bs)) = sep.intercalate (as ++ (ys ++ bs)) ↔
      sep.intercalate xs = sep.intercalate ys := by
  have hright : sep.intercalate (xs ++ bs) = sep.intercalate (ys ++ bs) ↔
      sep.intercalate xs = sep.intercalate ys := by
    cases bs with
    | nil => rw [List.append_nil, List.append_nil]
    | cons b bs =>
      rw [String.intercalate_append_of_ne_nil hxs (List.cons_ne_nil b bs),
        String.intercalate_append_of_ne_nil hys (List.cons_ne_nil b bs), String.append_left_inj,
        String.append_left_inj]
  rw [← hright]
  cases as with
  | nil => rfl
  | cons a as =>
    rw [String.intercalate_append_of_ne_nil (List.cons_ne_nil a as) (by simp [hxs]),
      String.intercalate_append_of_ne_nil (List.cons_ne_nil a as) (by simp [hys]),
      String.append_right_inj]

variable {pre post : List Token} {t : Token}

theorem exists_hollow_nested (n : Nat) :
    (∃ u ∈ pre ++ nested n t :: post, u.Hollow) ↔ ∃ u ∈ pre ++ t :: post, u.Hollow := by
  simp only [List.mem_append, List.mem_cons, or_and_right, exists_or, exists_eq_left, hollow_nested]

theorem columnDefinition_nested_eq_error (n : Nat) {e : Error} :
    columnDefinition (pre ++ nested n t :: post) = .error e ↔
      columnDefinition (pre ++ t :: post) = .error e := by
  rw [columnDefinition_eq_error, columnDefinition_eq_error, exists_hollow_nested]

theorem columnDefinition_without (h : ∀ u ∈ pre ++ t :: post, ¬u.Hollow) :
    columnDefinition (pre ++ t :: post) = .ok (" ".intercalate ((ofRank 0 pre ++
      (passed t.rank pre post ++ t :: behind t.rank pre post)).map written)) := by
  rw [columnDefinition_of_solid h, sorted_append_cons]

theorem columnDefinition_within (r n : Nat) (h : ∀ u ∈ pre ++ t :: post, ¬u.Hollow) :
    columnDefinition (pre ++ nested (n + 1) t :: post) = .ok (" ".intercalate ((ofRank 0 pre ++
      t :: (passed r pre post ++ behind r pre post)).map written)) := by
  have hsolid : ∀ u ∈ pre ++ nested (n + 1) t :: post, ¬u.Hollow := by
    intro u hu hh
    obtain ⟨v, hv, hh⟩ := (exists_hollow_nested (n + 1)).1 ⟨u, hu, hh⟩
    exact h v hv hh
  rw [columnDefinition_of_solid hsolid, sorted_append_nested r]
  simp only [List.map_append, List.map_cons, written_nested]

theorem columnDefinition_nested_eq_iff (n : Nat) :
    columnDefinition (pre ++ nested (n + 1) t :: post) = columnDefinition (pre ++ t :: post) ↔
      (∃ u ∈ pre ++ t :: post, u.Hollow) ∨
        " ".intercalate ((t :: passed t.rank pre post).map written) =
          " ".intercalate ((passed t.rank pre post ++ [t]).map written) := by
  by_cases hh : ∃ u ∈ pre ++ t :: post, u.Hollow
  · have herror := columnDefinition_eq_error.2 ⟨rfl, hh⟩
    rw [herror, columnDefinition_nested_eq_error]
    exact iff_of_true herror (.inl hh)
  · have hsolid : ∀ u ∈ pre ++ t :: post, ¬u.Hollow := fun u hu h => hh ⟨u, hu, h⟩
    rw [columnDefinition_within t.rank n hsolid, columnDefinition_without hsolid, or_iff_right hh,
      Except.ok.injEq]
    have hin : ofRank 0 pre ++ t :: (passed t.rank pre post ++ behind t.rank pre post) =
        ofRank 0 pre ++ ((t :: passed t.rank pre post) ++ behind t.rank pre post) := rfl
    have hout : passed t.rank pre post ++ t :: behind t.rank pre post =
        (passed t.rank pre post ++ [t]) ++ behind t.rank pre post := List.append_cons _ _ _
    rw [hin, hout, List.map_append, List.map_append, List.map_append, List.map_append]
    exact intercalate_inj (by simp) (by simp)

/-- **Any tokens of rank 0, such as types, can be put in lists of their own.** -/
theorem columnDefinition_nestedTypes {ts us : List Token}
    (h : List.Forall₂ (fun t u => ∃ n, u = nested n t ∧ (n = 0 ∨ t.rank = 0)) ts us) :
    columnDefinition us = columnDefinition ts := by
  refine (columnDefinition_congr (h.imp fun t u h => ?_)).symm
  obtain ⟨n, rfl, h⟩ := h
  refine ⟨?_, (render_nested n t).symm⟩
  cases n with
  | zero => rfl
  | succ n => exact h.resolve_left n.succ_ne_zero

/-- What becomes of the definition of a column if the token `t` between `pre` and `post` is put in
`n + 1` lists. -/
structure Nesting (pre post : List Token) (t : Token) (n : Nat) : Prop where
  /-- The token keeps its text, or has none for the same reason. -/
  rendered : (nested (n + 1) t).render = t.render
  /-- The definition fails for the same reasons. -/
  refused : ∀ e, columnDefinition (pre ++ nested (n + 1) t :: post) = .error e ↔
    columnDefinition (pre ++ t :: post) = .error e
  /-- Without lists the token comes behind the tokens that it would pass. -/
  without : (∀ u ∈ pre ++ t :: post, ¬u.Hollow) →
    columnDefinition (pre ++ t :: post) = .ok (" ".intercalate ((ofRank 0 pre ++
      (passed t.rank pre post ++ t :: behind t.rank pre post)).map written))
  /-- With lists it comes before them, right after the tokens of rank 0 that are given before it. -/
  within : (∀ u ∈ pre ++ t :: post, ¬u.Hollow) →
    columnDefinition (pre ++ nested (n + 1) t :: post) = .ok (" ".intercalate ((ofRank 0 pre ++
      t :: (passed t.rank pre post ++ behind t.rank pre post)).map written))
  /-- This is the same exactly if both fail, or if the token reads the same before and behind the
  tokens that it passes. -/
  same : columnDefinition (pre ++ nested (n + 1) t :: post) = columnDefinition (pre ++ t :: post) ↔
    (∃ u ∈ pre ++ t :: post, u.Hollow) ∨
      " ".intercalate ((t :: passed t.rank pre post).map written) =
        " ".intercalate ((passed t.rank pre post ++ [t]).map written)
  /-- So it is the same if the tokens around it are in order, which for one of rank 0 they are. -/
  inPlace : (∀ u ∈ pre, 0 < u.rank → t.rank < u.rank) → (∀ u ∈ post, t.rank ≤ u.rank) →
    columnDefinition (pre ++ nested (n + 1) t :: post) = columnDefinition (pre ++ t :: post)

/-- **A list of one token stands for the token, except for its place**: the definition is the same
only if the place is. -/
theorem nesting (pre post : List Token) (t : Token) (n : Nat) : Nesting pre post t n where
  rendered := render_nested (n + 1) t
  refused _ := columnDefinition_nested_eq_error (n + 1)
  without := columnDefinition_without
  within := columnDefinition_within t.rank n
  same := columnDefinition_nested_eq_iff n
  inPlace hpre hpost := by
    have hpassed : passed t.rank pre post = [] := by
      refine List.eq_nil_iff_forall_not_mem.2 fun u hu => ?_
      simp only [passed, mem_sorted, List.mem_append, List.mem_filter, Bool.and_eq_true,
        decide_eq_true_eq] at hu
      rcases hu with ⟨hu, h0, hle⟩ | ⟨hu, hlt⟩
      · exact absurd (hpre u hu h0) (Nat.not_lt.2 hle)
      · exact absurd (hpost u hu) (Nat.not_le.2 hlt)
    rw [columnDefinition_nested_eq_iff, hpassed]
    exact .inr rfl

/-- A constraint that is put in a list of its own comes before a type that is given after it. -/
theorem nested_constraint_first :
    columnDefinition [.list [.keyword .notNull], .keyword .text] = .ok "NOT NULL TEXT" ∧
      columnDefinition [.keyword .notNull, .keyword .text] = .ok "TEXT NOT NULL" := by
  constructor <;> cbv

end Token

end BoundSql
