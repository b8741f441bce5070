import BoundSql.Proofs.Column.Order
import Mathlib.Data.List.TakeWhile

/-!
# Tokens and free text

A constraint can be given as a token of its own or as free text.  Free text is ranked by its first
word (`Token.Leads`), whatever stands behind it and whatever its letter case, and the first word of
what is written for a token says which token it is.  So a token and its text have the same rank
(`Token.rankOfText_of_render`), and tokens can be replaced by their texts in a definition.  This
does not hold of lists, whose texts are ranked by the first words of their items, nor of the
keywords for the current date and time, whose words rank no text.  `Token.texts_alike` is the main
statement.
-/

namespace BoundSql

namespace Token

/-! ### First words -/

/-- The character ends a word. -/
def endsWord (c : Char) : Bool := Text.isBlank c || c == '('

/-- The first word of a text: only blanks stand in front of it, and it goes up to a blank, an
opening parenthesis or the end of the text. -/
def Leads (word : List Char) (s : String) : Prop :=
  ∃ blanks rest, s.toList = blanks ++ (word ++ rest) ∧
    (∀ c ∈ blanks, Text.isBlank c = true) ∧ (∀ c ∈ (word ++ rest).head?, Text.isBlank c = false) ∧
    (∀ c ∈ word, endsWord c = false) ∧ ∀ c ∈ rest.head?, endsWord c = true

/-- Taking and dropping characters cuts a text where they come to an end. -/
theorem cut_append {p : Char → Bool} {front rest : List Char} (hfront : ∀ c ∈ front, p c = true)
    (hrest : ∀ c ∈ rest.head?, p c = false) :
    (front ++ rest).takeWhile p = front ∧ (front ++ rest).dropWhile p = rest := by
  rw [List.takeWhile_append_of_pos hfront, List.dropWhile_append_of_pos hfront]
  cases rest with
  | nil => exact ⟨List.append_nil front, rfl⟩
  | cons c rest =>
    have hc := hrest c rfl
    rw [List.takeWhile_cons_of_neg (by simp [hc]), List.dropWhile_cons_of_neg (by simp [hc])]
    exact ⟨List.append_nil front, rfl⟩

theorem head?_dropWhile {p : Char → Bool} {s : List Char} {c : Char}
    (hc : c ∈ (s.dropWhile p).head?) : p c = false := by
  have hnot := List.head?_dropWhile_not p s
  rw [Option.mem_def.1 hc] at hnot
  exact hnot

theorem leadingWord_eq (s : String) :
    leadingWord s = (s.toList.dropWhile Text.isBlank).takeWhile fun c => !endsWord c :=
  rfl

/-- Every text has one first word. -/
theorem leads_iff {word : List Char} {s : String} : Leads word s ↔ word = leadingWord s := by
  rw [leadingWord_eq]
  constructor
  · rintro ⟨blanks, rest, hs, hblanks, hhead, hword, hrest⟩
    rw [hs, (cut_append hblanks hhead).2]
    refine (cut_append (fun c hc => ?_) fun c hc => ?_).1.symm
    · rw [hword c hc, Bool.not_false]
    · rw [hrest c hc, Bool.not_true]
  · rintro rfl
    refine ⟨s.toList.takeWhile Text.isBlank,
      (s.toList.dropWhile Text.isBlank).dropWhile fun c => !endsWord c, ?_, ?_, ?_, ?_, ?_⟩
    · rw [List.takeWhile_append_dropWhile, List.takeWhile_append_dropWhile]
    · exact fun c hc => List.mem_takeWhile_imp hc
    · rw [List.takeWhile_append_dropWhile]
      exact fun c hc => head?_dropWhile hc
    · exact fun c hc => by simpa only [Bool.not_eq_true'] using List.mem_takeWhile_imp hc
    · exact fun c hc => by simpa only [Bool.not_eq_false'] using head?_dropWhile hc

/-- Texts whose first words are one word, in whatever letter case, have one rank. -/
theorem rankOfText_congr {s s' : String} {word word' : List Char} (h : Leads word s)
    (h' : Leads word' s') (hcase : Text.upper word = Text.upper word') :
    rankOfText s = rankOfText s' := by
  rw [leads_iff.1 h, leads_iff.1 h'] at hcase
  rw [rankOfText, rankOfText, hcase]

/-- What stands behind a word and a character that ends it does not matter. -/
theorem rankOfText_of_toList {s word : String} {c : Char} {rest : List Char}
    (hs : s.toList = word.toList ++ c :: rest) (hne : word.toList ≠ [])
    (hany : word.toList.any endsWord = false) (hc : endsWord c = true) :
    rankOfText s = rankOfText word := by
  have hword (d : Char) (hd : d ∈ word.toList) : endsWord d = false :=
    Bool.eq_false_iff.2 (List.any_eq_false.1 hany d hd)
  have hhead (rest : List Char) : ∀ d ∈ (word.toList ++ rest).head?, Text.isBlank d = false := by
    cases hw : word.toList with
    | nil => exact absurd hw hne
    | cons d ds =>
      intro e he
      have hd := hword d (hw ▸ List.mem_cons_self)
      rw [← Option.some.inj he]
      exact (Bool.or_eq_false_iff.1 hd).1
  have hleads : Leads word.toList s :=
    ⟨[], c :: rest, hs, fun _ h => absurd h List.not_mem_nil, hhead _, hword,
      fun d hd => Option.some.inj hd ▸ hc⟩
  have hleads' : Leads word.toList word :=
    ⟨[], [], by rw [List.append_nil, List.nil_append], fun _ h => absurd h List.not_mem_nil,
      hhead _, hword, nofun⟩
  exact rankOfText_congr hleads hleads' rfl

/-! ### Numbers -/

/-- Words that rank a text begin with a letter. -/
theorem exists_head_of_rankOfText {s : String} (h : rankOfText s ≠ 0) :
    ∃ c ∈ (Text.upper (leadingWord s)).head?, 65 ≤ c.toNat := by
  have hletter {w : String} (hw : String.ofList (Text.upper (leadingWord s)) = w)
      (hletter : ∃ c ∈ w.toList.head?, 65 ≤ c.toNat) :
      ∃ c ∈ (Text.upper (leadingWord s)).head?, 65 ≤ c.toNat := by
    rwa [← hw, String.toList_ofList] at hletter
  unfold rankOfText at h
  split at h
  case h_13 => exact absurd rfl h
  all_goals
    rename_i hw
    exact hletter hw ⟨_, rfl, by decide⟩

/-- A text that begins with a sign or a digit names no constraint. -/
theorem rankOfText_of_numeral {s : String} {c : Char} {cs : List Char} (hs : s.toList = c :: cs)
    (hc : c = '-' ∨ c.isDigit = true) : rankOfText s = 0 := by
  have hbounds : 45 ≤ c.toNat ∧ c.toNat ≤ 57 := by
    rcases hc with rfl | hc
    · decide
    · have := Char.isDigit_iff_toNat.1 hc
      exact ⟨Nat.le_trans (by decide) this.1, this.2⟩
  have hblank : Text.isBlank c = false := by
    simp [Text.isBlank, Text.blankRanges]
    omega
  have hends : endsWord c = false := by
    rw [endsWord, hblank, Bool.false_or, beq_eq_false_iff_ne]
    rintro rfl
    exact absurd hbounds (by decide)
  have hupper : Text.upperChar c = [c] := by
    have hlower : ¬(c.val ≥ 'a'.val ∧ c.val ≤ 'z'.val) := by
      intro h
      have : 97 ≤ c.toNat := UInt32.le_iff_toNat_le.1 h.1
      omega
    have hsame : c.toUpper = c := dif_neg hlower
    rw [Text.upperChar, if_pos (by omega), hsame]
  obtain ⟨w, hw⟩ : ∃ w, leadingWord s = c :: w := by
    rw [leadingWord_eq, hs, List.dropWhile_cons_of_neg (by simp [hblank]),
      List.takeWhile_cons_of_pos (by simp [hends])]
    exact ⟨_, rfl⟩
  by_contra hne
  obtain ⟨d, hd, hletter⟩ := exists_head_of_rankOfText hne
  rw [hw, Text.upper_cons, hupper] at hd
  rw [← Option.some.inj hd] at hletter
  omega

theorem rankOfText_toString (i : Int) : rankOfText (toString i) = 0 := by
  have hdigits (n : Nat) : ∃ c cs, Nat.toDigits 10 n = c :: cs ∧ c.isDigit = true := by
    cases h : Nat.toDigits 10 n with
    | nil => exact absurd h Nat.toDigits_ne_nil
    | cons c cs =>
      have hc : c ∈ Nat.toDigits 10 n := h ▸ List.mem_cons_self
      exact ⟨c, cs, rfl, Nat.isDigit_of_mem_toDigits (by decide) (by decide) hc⟩
  cases i with
  | ofNat n =>
    obtain ⟨c, cs, h, hc⟩ := hdigits n
    exact rankOfText_of_numeral (Nat.toList_repr.trans h) (.inr hc)
  | negSucc n =>
    have hs : (toString (Int.negSucc n)).toList = '-' :: Nat.toDigits 10 (n + 1) := by
      change ("-" ++ Nat.repr (n + 1)).toList = _
      rw [String.toList_append, Nat.toList_repr]
      rfl
    exact rankOfText_of_numeral hs (.inl rfl)

theorem rankOfText_display (x : Binary64) : rankOfText x.display = 0 := by
  unfold Binary64.display
  split
  · decide
  · split
    · obtain ⟨c, cs, h, hc⟩ := Layout.finite_plain_eq_cons x
      exact rankOfText_of_numeral (String.toList_ofList.trans h) hc
    · split <;> decide

/-! ### Tokens and their texts -/

end Token

/-- The keyword stands for the current date or time. -/
def Keyword.isCurrent : Keyword → Bool
  | currentTimestamp | currentDate | currentTime => true
  | _ => false

namespace Token

/-- The token is neither a list nor a keyword for the current date or time. -/
def Replaceable : Token → Prop
  | list _ => False
  | keyword k => k.isCurrent = false
  | _ => True

theorem rankOfText_sql (k : Keyword) :
    rankOfText k.sql = rankOfKeyword k ↔ k.isCurrent = false := by
  cases k <;> decide

/-- **A token and its text have the same rank**, whatever there is inside it. -/
theorem rankOfText_of_render {t : Token} {s : String} (hp : t.Replaceable) (h : t.render = .ok s) :
    rankOfText s = t.rank := by
  cases t with
  | keyword k =>
    cases h
    exact (rankOfText_sql k).2 hp
  | integer i =>
    cases h
    exact rankOfText_toString _
  | real x =>
    cases h
    exact rankOfText_display x
  | text s' =>
    cases h
    rfl
  | list ts => exact hp.elim
  | default t =>
    rw [render, bind_eq_ok] at h
    obtain ⟨inner, -, h⟩ := h
    cases h
    have hs : ("DEFAULT " ++ inner).toList = "DEFAULT".toList ++ ' ' :: inner.toList :=
      String.toList_append
    have hdefault : rankOfText "DEFAULT" = 5 := by decide
    exact (rankOfText_of_toList hs (by decide) (by decide) (by decide)).trans hdefault
  | check condition =>
    cases h
    have hs : ("CHECK (" ++ condition ++ ")").toList =
        "CHECK".toList ++ ' ' :: '(' :: (condition ++ ")").toList := by
      rw [String.append_assoc, String.toList_append]
      rfl
    have hcheck : rankOfText "CHECK" = 6 := by decide
    exact (rankOfText_of_toList hs (by decide) (by decide) (by decide)).trans hcheck

/-- A token is left as it is, or replaced by its text. -/
inductive Rewritten : Token → Token → Prop where
  | same (t : Token) : Rewritten t t
  | text {t : Token} {s : String} (hp : t.Replaceable) (h : t.render = .ok s) :
    Rewritten t (.text s)

/-- **Of a token, nothing but its rank and its text matters.** -/
theorem columnDefinition_congr {ts us : List Token}
    (h : List.Forall₂ (fun t u => t.rank = u.rank ∧ t.render = u.render) ts us) :
    columnDefinition ts = columnDefinition us := by
  let entry (t : Token) := (t.rank, t.render)
  have hentries : ts.map entry = us.map entry := by
    rw [← List.forall₂_eq_eq_eq, List.forall₂_map_left_iff, List.forall₂_map_right_iff]
    exact h.imp fun t u h => Prod.ext h.1 h.2
  -- the entries are ordered as the tokens are
  have hsorted (ts : List Token) : (sorted ts).map entry =
      (ts.map entry).mergeSort fun a b => a.1 ≤ b.1 :=
    List.map_mergeSort fun _ _ _ _ => rfl
  have hrender (ts : List Token) :
      renderAll (sorted ts) = ((sorted ts).map entry).mapM Prod.snd := by
    rw [renderAll_eq_mapM, List.mapM_map]
    rfl
  rw [columnDefinition, columnDefinition, hrender ts, hrender us, hsorted ts, hsorted us, hentries]

/-- What free text and other tokens have to do with each other. -/
structure TextsAlike : Prop where
  /-- Every text has one first word. -/
  firstWord : ∀ s, ∃! word, Leads word s
  /-- Nothing of a text but its first word matters for its rank, and not in which letter case. -/
  byFirstWord : ∀ {s s' : String} {word word' : List Char}, Leads word s → Leads word' s' →
    Text.upper word = Text.upper word' → rank (.text s) = rank (.text s')
  /-- A token has the rank of its text. -/
  ranked : ∀ (t : Token) (s : String), t.Replaceable → t.render = .ok s → rank (.text s) = rank t
  /-- The keywords for the current date and time are exceptions. -/
  current : ∀ k : Keyword, k.isCurrent = true → rank (.text k.sql) ≠ rank (.keyword k)
  /-- Any tokens of a definition can be replaced by their texts. -/
  definition : ∀ ts us, List.Forall₂ Rewritten ts us → columnDefinition us = columnDefinition ts

/-- **Constraints can be written as tokens or as free text.** -/
theorem texts_alike : TextsAlike where
  firstWord s := ⟨leadingWord s, leads_iff.2 rfl, fun _ => leads_iff.1⟩
  byFirstWord := rankOfText_congr
  ranked _ _ := rankOfText_of_render
  current k hk h := Bool.false_ne_true (((rankOfText_sql k).1 h).symm.trans hk)
  definition ts us h := by
    refine (columnDefinition_congr (h.imp fun t u h => ?_)).symm
    cases h with
    | same => exact ⟨rfl, rfl⟩
    | text hp h => exact ⟨(rankOfText_of_render hp h).symm, h⟩

end Token

end BoundSql
