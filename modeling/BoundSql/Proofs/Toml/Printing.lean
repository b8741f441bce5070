import BoundSql.Proofs.Json.Printing
import BoundSql.Proofs.Toml.Spelling
import BoundSql.Toml.Printer

/-!
# Printing strings

`Toml.quote` writes a string on one line, whatever is in it (`Toml.writes_quote`).  Printers differ
in what they do about the ends of lines, so there is a second one: `Toml.quoteLines` goes to a new
line where the string does.
-/

namespace BoundSql

namespace Toml

theorem isPlain_of_not_isControl {c : Char} (h : isControl c = false) : isPlain c = true := by
  simp only [isControl, Bool.or_eq_false_iff, decide_eq_false_iff_not, beq_eq_false_iff_ne] at h
  simp only [isPlain, Bool.or_eq_true, Bool.and_eq_true, decide_eq_true_eq, bne_iff_ne]
  exact .inr ⟨Nat.le_of_not_lt h.1, h.2⟩

/-- Each character is spelled so. -/
theorem spells_escapeText (c : Char) : Spells c (escapeText c) := by
  unfold escapeText
  split
  · exact .letter (by decide)
  · exact .letter (by decide)
  · exact .letter (by decide)
  · exact .letter (by decide)
  · exact .letter (by decide)
  · exact .letter (by decide)
  · exact .letter (by decide)
  · rename_i hquote hslash _ _ _ _ _
    split
    · rename_i hcontrol
      have hlt : c.toNat < 0x80 := by
        simp only [isControl, Bool.or_eq_true, decide_eq_true_eq, beq_iff_eq] at hcontrol
        omega
      obtain ⟨hdigits, hnumber⟩ := Json.numberOf_hexDigit c.toNat hlt
      exact .code (.inl ⟨rfl, rfl⟩) hdigits hnumber
    · rename_i hcontrol
      exact .plain (isPlain_of_not_isControl (Bool.eq_false_iff.2 hcontrol)) hquote hslash

theorem forall₂_spells {f : Char → List Char} {cs : List Char} (h : ∀ c ∈ cs, Spells c (f c)) :
    List.Forall₂ Spells cs (cs.map f) :=
  List.forall₂_map_right_iff.2 (List.forall₂_same.2 h)

/-- **The text of a string writes it.** -/
theorem writes_quote (s : String) : Writes s (quote s) := by
  rw [← String.ofList_toList (s := s), quote, String.toList_ofList]
  split
  · rename_i h
    have hspells : ∀ c ∈ s.toList, Spells c [c] := fun c hc => by
      have hok := List.all_eq_true.1 h c hc
      simp only [Bool.not_eq_true', Bool.or_eq_false_iff, beq_eq_false_iff_ne] at hok
      exact .plain (isPlain_of_not_isControl hok.1.1) hok.1.2 hok.2
    have hwrites := Writes.basic (forall₂_spells hspells)
    rwa [← List.flatMap_def, List.flatMap_singleton'] at hwrites
  · split
    · rename_i h
      refine .literal fun c hc => ?_
      have hok := List.all_eq_true.1 h c hc
      simp only [Bool.not_eq_true', Bool.or_eq_false_iff, beq_eq_false_iff_ne] at hok
      exact ⟨isPlain_of_not_isControl hok.1, hok.2⟩
    · rw [List.flatMap_def]
      exact .basic (forall₂_spells fun c _ => spells_escapeText c)

/-! ### Lines -/

/-- A character as it stands in a basic string on several lines. -/
def lineText (c : Char) : List Char := if c = '\n' then [c] else escapeText c

/-- The text of a string, on several lines if it has several. -/
def quoteLines (s : String) : List Char :=
  if '\n' ∈ s.toList then
    '"' :: '"' :: '"' :: '\n' :: (s.toList.flatMap lineText ++ ['"', '"', '"'])
  else quote s

theorem basicPiece_lineText (c : Char) (rest : List Char) : BasicPiece [c] (lineText c) rest := by
  unfold lineText
  split
  · rename_i h
    subst h
    exact .newline .lf
  · exact .char (spells_escapeText c)

theorem body_lineText (cs : List Char) : Body '"' BasicPiece cs (cs.flatMap lineText) := by
  induction cs with
  | nil => exact .last (Nat.zero_le 2)
  | cons c cs ih => exact .more (Nat.zero_le 2) (basicPiece_lineText c _) ih

theorem writes_quoteLines (s : String) : Writes s (quoteLines s) := by
  unfold quoteLines
  split
  · have hlines := Writes.multilineBasic (.nextLine .lf (body_lineText s.toList))
    rwa [String.ofList_toList] at hlines
  · exact writes_quote s

end Toml

end BoundSql
