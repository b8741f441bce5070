import BoundSql.Proofs.Column.Texts
import Mathlib.Data.List.Forall2

/-!
# Tokens in the order of their ranks

The tokens of a column are put in the order of their ranks, and those of one rank stay in the order
given (`Token.Arranged`).  There is only one such order (`Token.eq_of_sameByRank`), so of the way in
which tokens are given, nothing matters but which tokens of each rank there are and in what order:
lists that agree in this have the same definition, or fail alike.  `Token.ordered` is the main
statement.
-/

namespace BoundSql

namespace Token

/-- The tokens of a rank, in the order given. -/
def ofRank (r : Nat) (ts : List Token) : List Token := ts.filter fun t => t.rank == r

/-- No token stands behind one of a higher rank. -/
def Ranked (ts : List Token) : Prop := ts.Pairwise fun t u => t.rank ≤ u.rank

/-- There are the same tokens of each rank, in the same order. -/
def SameByRank (ts us : List Token) : Prop := ∀ r, ofRank r ts = ofRank r us

/-! ### Tokens of a rank -/

theorem ofRank_cons (r : Nat) (t : Token) (ts : List Token) :
    ofRank r (t :: ts) = if t.rank = r then t :: ofRank r ts else ofRank r ts := by
  simp only [ofRank, List.filter_cons, beq_iff_eq]

theorem ofRank_append (r : Nat) (ts us : List Token) :
    ofRank r (ts ++ us) = ofRank r ts ++ ofRank r us :=
  List.filter_append ts us

theorem ofRank_filter (p : Nat → Bool) (r : Nat) (ts : List Token) :
    ofRank r (ts.filter fun t => p t.rank) = if p r then ofRank r ts else [] := by
  rw [ofRank, List.filter_filter]
  split
  · refine List.filter_congr fun t _ => ?_
    by_cases hr : t.rank = r <;> simp [*]
  · refine List.filter_eq_nil_iff.2 fun t _ => ?_
    by_cases hr : t.rank = r <;> simp [*]

theorem ofRank_ofRank (q r : Nat) (ts : List Token) :
    ofRank q (ofRank r ts) = if q = r then ofRank q ts else [] := by
  have h := ofRank_filter (· == r) q ts
  simp only [beq_iff_eq] at h
  exact h

theorem mem_ofRank {r : Nat} {t : Token} {ts : List Token} :
    t ∈ ofRank r ts ↔ t ∈ ts ∧ t.rank = r := by
  rw [ofRank, List.mem_filter, beq_iff_eq]

theorem SameByRank.mem_iff {ts us : List Token} (h : SameByRank ts us) {t : Token} :
    t ∈ ts ↔ t ∈ us := by
  have hmem (ts : List Token) : t ∈ ts ↔ t ∈ ofRank t.rank ts := by
    rw [mem_ofRank, and_iff_left rfl]
  rw [hmem ts, h t.rank, ← hmem us]

/-! ### One order -/

/-- The first token of an ordered list has the lowest rank. -/
theorem Ranked.head_le {t u : Token} {ts : List Token} (h : Ranked (t :: ts)) (hu : u ∈ t :: ts) :
    t.rank ≤ u.rank := by
  rcases List.mem_cons.1 hu with rfl | hu
  · exact Nat.le_refl u.rank
  · exact List.rel_of_pairwise_cons h hu

theorem Ranked.append {r : Nat} {ts us : List Token} (ht : Ranked ts) (hu : Ranked us)
    (hts : ∀ t ∈ ts, t.rank ≤ r) (hus : ∀ u ∈ us, r ≤ u.rank) : Ranked (ts ++ us) :=
  List.pairwise_append.2 ⟨ht, hu, fun t htm u hum => Nat.le_trans (hts t htm) (hus u hum)⟩

theorem ranked_ofRank (r : Nat) (ts : List Token) : Ranked (ofRank r ts) := by
  refine List.pairwise_of_forall_mem_list fun t ht u hu => Nat.le_of_eq ?_
  exact (mem_ofRank.1 ht).2.trans (mem_ofRank.1 hu).2.symm

/-- **Tokens can be ordered in one way only**, if those of one rank are to stay as they are. -/
theorem eq_of_sameByRank {ts us : List Token} (ht : Ranked ts) (hu : Ranked us)
    (h : SameByRank ts us) : ts = us := by
  induction ts generalizing us with
  | nil =>
    symm
    exact List.eq_nil_iff_forall_not_mem.2 fun u hu => List.not_mem_nil (h.mem_iff.2 hu)
  | cons t ts ih =>
    cases us with
    | nil => exact absurd (h.mem_iff.1 List.mem_cons_self) List.not_mem_nil
    | cons u us =>
      have hrank : t.rank = u.rank :=
        Nat.le_antisymm (ht.head_le (h.mem_iff.2 List.mem_cons_self))
          (hu.head_le (h.mem_iff.1 List.mem_cons_self))
      -- both are the first ones of their rank
      have hfirst := h t.rank
      rw [ofRank_cons, ofRank_cons, if_pos rfl, if_pos hrank.symm, List.cons.injEq] at hfirst
      obtain ⟨rfl, -⟩ := hfirst
      have hrest : SameByRank ts us := by
        intro r
        have hr := h r
        rw [ofRank_cons, ofRank_cons] at hr
        split at hr
        · exact List.tail_eq_of_cons_eq hr
        · exact hr
      rw [ih ht.of_cons hu.of_cons hrest]

/-! ### The order of a definition -/

theorem rank_trans (t u v : Token) (htu : decide (t.rank ≤ u.rank) = true)
    (huv : decide (u.rank ≤ v.rank) = true) : decide (t.rank ≤ v.rank) = true := by
  simp only [decide_eq_true_eq] at *
  omega

theorem rank_total (t u : Token) :
    (decide (t.rank ≤ u.rank) || decide (u.rank ≤ t.rank)) = true := by
  simp only [Bool.or_eq_true, decide_eq_true_eq]
  omega

theorem ranked_sorted (ts : List Token) : Ranked (sorted ts) :=
  (List.pairwise_mergeSort rank_trans rank_total ts).imp of_decide_eq_true

/-- **Ordering keeps the tokens of each rank**, in their order. -/
theorem sameByRank_sorted (ts : List Token) : SameByRank (sorted ts) ts := by
  intro r
  have hpairs : (ofRank r ts).Pairwise fun t u => decide (t.rank ≤ u.rank) = true :=
    (ranked_ofRank r ts).imp fun h => decide_eq_true h
  -- tokens in order stay in order, and there are no more of the rank afterwards than before
  have hsublist : (ofRank r ts).Sublist (sorted ts) :=
    List.sublist_mergeSort rank_trans rank_total hpairs List.filter_sublist
  have hkept : (ofRank r ts).Sublist (ofRank r (sorted ts)) := by
    have := hsublist.filter fun t => t.rank == r
    simp only [ofRank, List.filter_filter, Bool.and_self] at this
    exact this
  have hlength : (ofRank r (sorted ts)).length = (ofRank r ts).length :=
    ((List.mergeSort_perm ts _).filter _).length_eq
  exact (hkept.eq_of_length hlength.symm).symm

/-- Whatever is in order and has the same tokens of each rank is what ordering gives. -/
theorem sorted_eq {ts us : List Token} (hr : Ranked us) (h : SameByRank us ts) : sorted ts = us :=
  eq_of_sameByRank (ranked_sorted ts) hr fun r => (sameByRank_sorted ts r).trans (h r).symm

/-- `us` are the tokens `ts` in the order of their ranks. -/
structure Arranged (ts us : List Token) : Prop where
  /-- No token is lost, and none is added. -/
  perm : us.Perm ts
  ranked : Ranked us
  /-- Tokens of one rank are in the order given. -/
  stable : SameByRank us ts

theorem arranged_sorted (ts : List Token) : Arranged ts (sorted ts) :=
  ⟨List.mergeSort_perm ts _, ranked_sorted ts, sameByRank_sorted ts⟩

/-- The first token of rank 0, if there is one, is the first token of all. -/
theorem exists_sorted_eq_cons {t : Token} {ts : List Token}
    (h : ts.find? (fun u => u.rank == 0) = some t) : ∃ us, sorted ts = t :: us := by
  have hfirst : (ofRank 0 (sorted ts)).head? = some t := by
    rw [sameByRank_sorted ts 0, ofRank, List.head?_filter, h]
  have ht := mem_ofRank.1 (List.mem_of_mem_head? hfirst)
  cases hs : sorted ts with
  | nil =>
    rw [hs] at hfirst
    cases hfirst
  | cons u us =>
    have hu : u.rank = 0 := by
      have hle := (hs ▸ ranked_sorted ts).head_le (hs ▸ ht.1)
      omega
    rw [hs, ofRank_cons, if_pos hu] at hfirst
    cases hfirst
    exact ⟨us, rfl⟩

/-! ### Definitions -/

/-- The definition of a column with these tokens. -/
structure Ordered (ts : List Token) : Prop where
  /-- It fails exactly if there is an empty list somewhere in a token, and for no other reason. -/
  refused : ∀ e, columnDefinition ts = .error e ↔ e = .emptySequence ∧ ∃ t ∈ ts, t.Hollow
  /-- Otherwise it is the texts of the tokens in the order of their ranks, with spaces between. -/
  written : (∀ t ∈ ts, ¬t.Hollow) → ∃ us ss, Arranged ts us ∧
    List.Forall₂ (fun t s => t.render = .ok s) us ss ∧
      columnDefinition ts = .ok (" ".intercalate ss)
  /-- It starts with the first token of rank 0, if there is one. -/
  leading : ∀ t, ts.find? (fun u => u.rank == 0) = some t → ∀ d, columnDefinition ts = .ok d →
    ∃ s, t.render = .ok s ∧ (d = s ∨ ∃ more, d = s ++ " " ++ more)
  /-- Whatever list has the same tokens of each rank, in the same order, gives the same. -/
  canonical : ∀ us, SameByRank us ts → columnDefinition us = columnDefinition ts
  /-- A list that is one token gives the same as its items. -/
  listed : ColumnSpec.definition (.one (.list ts)) = ColumnSpec.definition (.many ts)

/-- **The definition of a column does not depend on the order of its tokens**, but for the order of
those of one rank. -/
theorem ordered (ts : List Token) : Ordered ts where
  refused _ := columnDefinition_eq_error
  written h := by
    refine ⟨sorted ts, (sorted ts).map written, arranged_sorted ts, ?_, columnDefinition_of_solid h⟩
    rw [List.forall₂_map_right_iff, List.forall₂_same]
    exact fun t ht => render_of_solid (h t (mem_sorted.1 ht))
  leading t ht d hd := by
    obtain ⟨us, hus⟩ := exists_sorted_eq_cons ht
    have hsolid : ∀ u ∈ ts, ¬u.Hollow := fun u hu hh =>
      nomatch hd.symm.trans (columnDefinition_eq_error.2 ⟨rfl, u, hu, hh⟩)
    rw [columnDefinition_of_solid hsolid, hus, List.map_cons] at hd
    refine ⟨t.written, render_of_solid (hsolid t (List.mem_of_find?_eq_some ht)), ?_⟩
    rw [← Except.ok.inj hd]
    cases us with
    | nil => exact .inl String.intercalate_singleton
    | cons u us => exact .inr ⟨_, String.intercalate_cons_cons⟩
  canonical us h := by
    have hsorted : sorted us = sorted ts :=
      sorted_eq (ranked_sorted ts) fun r => (sameByRank_sorted ts r).trans (h r).symm
    rw [columnDefinition, columnDefinition, hsorted]
  listed := rfl

/-- The type comes first, wherever it was given, and each constraint has its place. -/
example : columnDefinition [.check "n > 0", .keyword .unique, .keyword .notNull, .keyword .text] =
    .ok "TEXT NOT NULL UNIQUE CHECK (n > 0)" := by
  cbv

end Token

end BoundSql
