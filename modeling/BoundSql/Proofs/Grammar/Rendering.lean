import BoundSql.Proofs.Grammar.Derivation

/-!
# Expressions are read back as they were built

An expression is written with few parentheses.  `Expr.parses` says that they are enough: what is
written has one tree in the grammar, and it is the tree of the expression up to the grouping of
consecutive `AND` and of consecutive `OR`.

An expression is written on the level of its shape.  For each operator there is a lemma about the
operands it accepts, whatever their shapes; parentheses make a primary of any expression.  The
grammar groups `AND` and `OR` to the right, so an operand on the left that is a conjunction itself
is taken apart and put together again (`Derives.and_append`).
-/

namespace BoundSql

namespace Grammar

/-! ### Trees up to grouping -/

/-- The trees differ in the grouping of consecutive `AND` and of consecutive `OR` only. -/
inductive Reassociated : Tree → Tree → Prop where
  | refl (t : Tree) : Reassociated t t
  | symm {t u : Tree} (h : Reassociated t u) : Reassociated u t
  | trans {t u v : Tree} (h : Reassociated t u) (h' : Reassociated u v) : Reassociated t v
  | andAssoc (t u v : Tree) : Reassociated (.and (.and t u) v) (.and t (.and u v))
  | orAssoc (t u v : Tree) : Reassociated (.or (.or t u) v) (.or t (.or u v))
  | arithmetic (op : Arithmetic) {t t' u u' : Tree} (h : Reassociated t t')
    (h' : Reassociated u u') : Reassociated (.arithmetic op t u) (.arithmetic op t' u')
  | compare (c : Comparator) {t t' u u' : Tree} (h : Reassociated t t')
    (h' : Reassociated u u') : Reassociated (.compare c t u) (.compare c t' u')
  | isNull (negated : Bool) {t t' : Tree} (h : Reassociated t t') :
    Reassociated (.isNull negated t) (.isNull negated t')
  | isIn {t t' u u' : Tree} (h : Reassociated t t') (h' : Reassociated u u') :
    Reassociated (.isIn t u) (.isIn t' u')
  | item {t t' u u' : Tree} (h : Reassociated t t') (h' : Reassociated u u') :
    Reassociated (.item t u) (.item t' u')
  | between {t t' u u' v v' : Tree} (h : Reassociated t t') (h' : Reassociated u u')
    (h'' : Reassociated v v') : Reassociated (.between t u v) (.between t' u' v')
  | not {t t' : Tree} (h : Reassociated t t') : Reassociated (.not t) (.not t')
  | and {t t' u u' : Tree} (h : Reassociated t t') (h' : Reassociated u u') :
    Reassociated (.and t u) (.and t' u')
  | or {t t' u u' : Tree} (h : Reassociated t t') (h' : Reassociated u u') :
    Reassociated (.or t u) (.or t' u')

/-! ### Texts -/

/-- Two texts with a blank in between. -/
def spaced (l m : List Symbol) : List Symbol := l ++ .char ' ' :: m

/-- A text in parentheses. -/
def enclosed (l : List Symbol) : List Symbol := .char '(' :: l ++ [.char ')']

/-- A text in parentheses where they are needed. -/
def wrapped (needed : Bool) (l : List Symbol) : List Symbol := if needed then enclosed l else l

/-- The text of a list of placeholders. -/
def marks : Nat → List Symbol
  | 0 => []
  | 1 => spell "?"
  | n + 2 => spell "?" ++ .char ',' :: .char ' ' :: marks (n + 1)

/-- The tree of a list of placeholders. -/
def markItems : Nat → Tree
  | 0 => .none
  | n + 1 => .item .mark (markItems n)

end Grammar

namespace Expr

open Grammar

/-- What is written for an expression, the texts of the caller as one symbol each. -/
def symbols : Expr → List Symbol
  | column name => spell name
  | bound _ => spell "?"
  | raw text _ => [.raw text]
  | arithmetic op left right =>
    spaced (wrapped left.shape.breaksArithmetic left.symbols)
      (spaced (spell op.sql) (wrapped right.shape.breaksArithmetic right.symbols))
  | compare op left right =>
    spaced (wrapped left.shape.breaksComparison left.symbols)
      (spaced (spell op.sql) (wrapped right.shape.breaksComparison right.symbols))
  | like name _ => spaced (spell name) (spaced (spell "LIKE") (spell "?"))
  | isNull name => spaced (spell name) (spaced (spell "IS") (spell "NULL"))
  | isNotNull name =>
    spaced (spell name) (spaced (spell "IS") (spaced (spell "NOT") (spell "NULL")))
  | isIn name values => spaced (spell name) (spaced (spell "IN") (enclosed (marks values.length)))
  | between name _ _ =>
    spaced (spell name)
      (spaced (spell "BETWEEN") (spaced (spell "?") (spaced (spell "AND") (spell "?"))))
  | not e => spaced (spell "NOT") (enclosed e.symbols)
  | and left right =>
    spaced (wrapped left.shape.breaksAnd left.symbols)
      (spaced (spell "AND") (wrapped right.shape.breaksAnd right.symbols))
  | or left right =>
    spaced (wrapped left.shape.breaksOr left.symbols)
      (spaced (spell "OR") (wrapped right.shape.breaksOr right.symbols))

/-- The tree of an expression. -/
def tree : Expr → Tree
  | column name => .name name
  | bound _ => .mark
  | raw text _ => .raw text
  | arithmetic op left right => .arithmetic op left.tree right.tree
  | compare op left right => .compare (.operator op) left.tree right.tree
  | like name _ => .compare .like (.name name) .mark
  | isNull name => .isNull false (.name name)
  | isNotNull name => .isNull true (.name name)
  | isIn name values => .isIn (.name name) (markItems values.length)
  | between name _ _ => .between (.name name) .mark .mark
  | not e => .not e.tree
  | and left right => .and left.tree right.tree
  | or left right => .or left.tree right.tree

/-- Every column is one name. -/
def Named : Expr → Prop
  | column name | like name _ | isNull name | isNotNull name | isIn name _ | between name _ _ =>
    lex (spell name) = [.name name]
  | bound _ | raw _ _ => True
  | arithmetic _ left right | compare _ left right | and left right | or left right =>
    left.Named ∧ right.Named
  | not e => e.Named

end Expr

/-! ### The text that is written -/

namespace Grammar

theorem chars_spaced (l m : List Symbol) :
    (spaced l m).flatMap Symbol.chars =
      l.flatMap Symbol.chars ++ ' ' :: m.flatMap Symbol.chars := by
  rw [spaced, List.flatMap_append, List.flatMap_cons]
  rfl

theorem chars_enclosed (l : List Symbol) :
    (enclosed l).flatMap Symbol.chars = '(' :: l.flatMap Symbol.chars ++ [')'] := by
  rw [enclosed, List.flatMap_append, List.flatMap_cons]
  rfl

theorem chars_wrapped {l : List Symbol} {f : Fragment}
    (h : l.flatMap Symbol.chars = f.script.toList) (needed : Bool) :
    (wrapped needed l).flatMap Symbol.chars = (Expr.grouped needed f).script.toList := by
  cases needed with
  | false => exact h
  | true =>
    change (enclosed l).flatMap Symbol.chars = f.parenthesized.script.toList
    rw [chars_enclosed, h, Fragment.parenthesized, Fragment.script_append, Fragment.script_append,
      String.toList_append, String.toList_append]
    rfl

theorem chars_binary {l m : List Symbol} {f g : Fragment}
    (hl : l.flatMap Symbol.chars = f.script.toList)
    (hm : m.flatMap Symbol.chars = g.script.toList) (op : String) :
    (spaced l (spaced (spell op) m)).flatMap Symbol.chars =
      (Expr.binary op f g).script.toList := by
  rw [chars_spaced, chars_spaced, flatMap_chars_spell, hl, hm, Expr.binary,
    Fragment.script_append, Fragment.script_append, Fragment.script_text]
  simp only [String.toList_append, List.append_assoc]
  rfl

theorem chars_marks (values : List Value) :
    (marks values.length).flatMap Symbol.chars =
      (Fragment.joined ", " (values.map .placeholder)).script.toList := by
  induction values with
  | nil => rfl
  | cons v values ih =>
    cases values with
    | nil => exact flatMap_chars_spell "?"
    | cons w values =>
      change (spell "?" ++ .char ',' :: .char ' ' ::
        marks (w :: values).length).flatMap Symbol.chars = _
      rw [List.flatMap_append, List.flatMap_cons, List.flatMap_cons, ih, flatMap_chars_spell]
      simp only [List.map_cons, Fragment.joined, Fragment.script_append, String.toList_append,
        List.append_assoc]
      rfl

end Grammar

open Grammar

/-- **The symbols of an expression are the text that is written for it.** -/
theorem Expr.chars_symbols (e : Expr) :
    e.symbols.flatMap Symbol.chars = e.render.script.toList := by
  induction e with
  | column name => exact flatMap_chars_spell name
  | bound v => exact flatMap_chars_spell "?"
  | raw text values => exact List.append_nil _
  | arithmetic op left right ihl ihr | compare op left right ihl ihr | and left right ihl ihr
  | or left right ihl ihr =>
    exact chars_binary (chars_wrapped ihl _) (chars_wrapped ihr _) _
  | like name pattern =>
    simp only [symbols, render, chars_spaced, flatMap_chars_spell, Fragment.script_append,
      Fragment.script_text, Fragment.script_placeholder, String.toList_append, List.append_assoc]
    rfl
  | isNull name =>
    simp only [symbols, render, chars_spaced, flatMap_chars_spell, Fragment.script_text,
      String.toList_append]
    rfl
  | isNotNull name =>
    simp only [symbols, render, chars_spaced, flatMap_chars_spell, Fragment.script_text,
      String.toList_append]
    rfl
  | isIn name values =>
    simp only [symbols, render, chars_spaced, chars_enclosed, chars_marks, flatMap_chars_spell,
      Fragment.script_append, Fragment.script_text, String.toList_append, List.append_assoc]
    rfl
  | between name low high =>
    simp only [symbols, render, chars_spaced, flatMap_chars_spell, Fragment.script_append,
      Fragment.script_text, Fragment.script_placeholder, String.toList_append, List.append_assoc]
    rfl
  | not e ih =>
    simp only [symbols, render, chars_spaced, chars_enclosed, flatMap_chars_spell, ih,
      Fragment.parenthesized, Fragment.script_append, Fragment.script_text, String.toList_append]
    rfl

/-! ### Operands -/

/-- The level that an expression of this shape is written on. -/
def Expr.Shape.level : Expr.Shape → Grammar.Level
  | atom => .primary
  | arithmetic => .arithmetic
  | comparison => .comparison
  | not => .negation
  | and => .conjunction
  | or => .disjunction
  | raw => .whole

namespace Grammar

/-- The next level that binds less, up to whole expressions. -/
def Level.up : Level → Level
  | primary => arithmetic
  | arithmetic => comparison
  | comparison => negation
  | negation => conjunction
  | conjunction => disjunction
  | disjunction => whole
  | l => l

theorem Derives.up {l : Level} {ts : List Token} {t : Tree} (h : Derives l ts t) :
    Derives l.up ts t := by
  cases l with
  | primary => exact .operand h
  | arithmetic => exact .plain h
  | comparison => exact .positive h
  | negation => exact .single h
  | conjunction => exact .conjunction h
  | disjunction => exact .expression h
  | _ => exact h

/-- **Two conjunctions in a row are one**, grouped anew. -/
theorem Derives.and_append {ts us : List Token} {t u : Tree} (h : Derives .conjunction ts t)
    (h' : Derives .conjunction us u) :
    ∃ v, Derives .conjunction (ts ++ .and :: us) v ∧ Reassociated (.and t u) v := by
  -- by induction on the left one, the last operand of which meets the right one
  generalize hl : Level.conjunction = l at h
  induction h with
  | single h => exact ⟨_, .and h h', .refl _⟩
  | @and ts vs t v h _ _ ih =>
    obtain ⟨w, hw, hr⟩ := ih hl
    refine ⟨.and t w, ?_, (Reassociated.andAssoc t v u).trans ((Reassociated.refl t).and hr)⟩
    rw [List.append_assoc, List.cons_append]
    exact .and h hw
  | _ => cases hl

/-- **Two disjunctions in a row are one**, grouped anew. -/
theorem Derives.or_append {ts us : List Token} {t u : Tree} (h : Derives .disjunction ts t)
    (h' : Derives .disjunction us u) :
    ∃ v, Derives .disjunction (ts ++ .or :: us) v ∧ Reassociated (.or t u) v := by
  generalize hl : Level.disjunction = l at h
  induction h with
  | conjunction h => exact ⟨_, .or h h', .refl _⟩
  | @or ts vs t v h _ _ ih =>
    obtain ⟨w, hw, hr⟩ := ih hl
    refine ⟨.or t w, ?_, (Reassociated.orAssoc t v u).trans ((Reassociated.refl t).or hr)⟩
    rw [List.append_assoc, List.cons_append]
    exact .or h hw
  | _ => cases hl

/-- The text is read with a tree on the level, which is this tree but for grouping. -/
def Parses (l : Level) (s : List Symbol) (t : Tree) : Prop :=
  ∃ ts u, Reads s ts ∧ Derives l ts u ∧ Reassociated t u

namespace Parses

variable {l : Level} {s r : List Symbol} {t u : Tree}

theorem up (h : Parses l s t) : Parses l.up s t := by
  obtain ⟨ts, v, hs, hv, ht⟩ := h
  exact ⟨ts, v, hs, hv.up, ht⟩

/-- Parentheses make a primary of any expression. -/
theorem enclosed (h : Parses .whole s t) : Parses .primary (enclosed s) t := by
  obtain ⟨ts, v, hs, hv, ht⟩ := h
  exact ⟨_, v, hs.group, .group hv, ht⟩

/-- An expression of any shape is a whole one. -/
theorem whole {k : Expr.Shape} (h : Parses k.level s t) : Parses .whole s t := by
  cases k with
  | atom => exact h.up.up.up.up.up.up
  | arithmetic => exact h.up.up.up.up.up
  | comparison => exact h.up.up.up.up
  | not => exact h.up.up.up
  | and => exact h.up.up
  | or => exact h.up
  | raw => exact h

/-- An operand of arithmetic. -/
theorem primary {k : Expr.Shape} (h : Parses k.level s t) :
    Parses .primary (wrapped k.breaksArithmetic s) t := by
  cases k with
  | atom => exact h
  | _ => exact h.whole.enclosed

/-- An operand of a comparison. -/
theorem arithmetic {k : Expr.Shape} (h : Parses k.level s t) :
    Parses .arithmetic (wrapped k.breaksComparison s) t := by
  cases k with
  | atom => exact h.up
  | arithmetic => exact h
  | _ => exact h.whole.enclosed.up

/-- An operand of `AND`. -/
theorem conjunction {k : Expr.Shape} (h : Parses k.level s t) :
    Parses .conjunction (wrapped k.breaksAnd s) t := by
  cases k with
  | atom => exact h.up.up.up.up
  | arithmetic => exact h.up.up.up
  | comparison => exact h.up.up
  | not => exact h.up
  | and => exact h
  | or => exact h.whole.enclosed.up.up.up.up
  | raw => exact h.whole.enclosed.up.up.up.up

/-- An operand of `OR`. -/
theorem disjunction {k : Expr.Shape} (h : Parses k.level s t) :
    Parses .disjunction (wrapped k.breaksOr s) t := by
  cases k with
  | atom => exact h.up.up.up.up.up
  | arithmetic => exact h.up.up.up.up
  | comparison => exact h.up.up.up
  | not => exact h.up.up
  | and => exact h.up
  | or => exact h
  | raw => exact h.whole.enclosed.up.up.up.up.up

/-! ### Operators -/

theorem reads_operator (o : Operator) : Reads (spell o.sql) [.compare (.operator o)] := by
  cases o <;> exact ⟨rfl, rfl⟩

theorem reads_arithmetic (op : Arithmetic) : Reads (spell op.sql) [.arithmetic op] := by
  cases op <;> exact ⟨rfl, rfl⟩

theorem reads_mark : Reads (spell "?") [.mark] := ⟨rfl, rfl⟩

theorem reads_and : Reads (spell "AND") [.and] := ⟨rfl, rfl⟩

theorem reads_not : Reads (spell "NOT") [.not] := ⟨rfl, rfl⟩

theorem of_arithmetic (op : Arithmetic) (h : Parses .primary s t) (h' : Parses .primary r u) :
    Parses .arithmetic (spaced s (spaced (spell op.sql) r)) (.arithmetic op t u) := by
  obtain ⟨ts, v, hs, hv, ht⟩ := h
  obtain ⟨us, w, hr, hw, hu⟩ := h'
  have hop := reads_arithmetic op
  exact ⟨_, _, hs.blank (hop.blank hr), .arithmetic op hv hw, .arithmetic op ht hu⟩

theorem of_compare {op : String} (c : Comparator) (hc : Reads (spell op) [.compare c])
    (h : Parses .arithmetic s t) (h' : Parses .arithmetic r u) :
    Parses .comparison (spaced s (spaced (spell op) r)) (.compare c t u) := by
  obtain ⟨ts, v, hs, hv, ht⟩ := h
  obtain ⟨us, w, hr, hw, hu⟩ := h'
  exact ⟨_, _, hs.blank (hc.blank hr), .compare c hv hw, .compare c ht hu⟩

theorem of_and (h : Parses .conjunction s t) (h' : Parses .conjunction r u) :
    Parses .conjunction (spaced s (spaced (spell "AND") r)) (.and t u) := by
  obtain ⟨ts, v, hs, hv, ht⟩ := h
  obtain ⟨us, w, hr, hw, hu⟩ := h'
  obtain ⟨x, hx, hvw⟩ := hv.and_append hw
  exact ⟨_, x, hs.blank (reads_and.blank hr), hx, (ht.and hu).trans hvw⟩

theorem of_or (h : Parses .disjunction s t) (h' : Parses .disjunction r u) :
    Parses .disjunction (spaced s (spaced (spell "OR") r)) (.or t u) := by
  have hor : Reads (spell "OR") [.or] := ⟨rfl, rfl⟩
  obtain ⟨ts, v, hs, hv, ht⟩ := h
  obtain ⟨us, w, hr, hw, hu⟩ := h'
  obtain ⟨x, hx, hvw⟩ := hv.or_append hw
  exact ⟨_, x, hs.blank (hor.blank hr), hx, (ht.or hu).trans hvw⟩

theorem of_not (h : Parses .whole s t) :
    Parses .negation (spaced (spell "NOT") (Grammar.enclosed s)) (.not t) := by
  obtain ⟨ts, v, hs, hv, ht⟩ := h.enclosed.up.up.up
  exact ⟨_, _, reads_not.blank hs, .not hv, ht.not⟩

theorem of_name {n : String} (h : lex (spell n) = [.name n]) :
    Parses .primary (spell n) (.name n) :=
  ⟨_, _, reads_name h, .name n, .refl _⟩

theorem of_mark : Parses .primary (spell "?") .mark := ⟨_, _, reads_mark, .mark, .refl _⟩

theorem of_isNull (h : Parses .arithmetic s t) :
    Parses .comparison (spaced s (spaced (spell "IS") (spell "NULL"))) (.isNull false t) := by
  have his : Reads (spell "IS") [.is] := ⟨rfl, rfl⟩
  have hnull : Reads (spell "NULL") [.null] := ⟨rfl, rfl⟩
  obtain ⟨ts, v, hs, hv, ht⟩ := h
  exact ⟨_, _, hs.blank (his.blank hnull), .isNull false hv, .isNull false ht⟩

theorem of_isNotNull (h : Parses .arithmetic s t) :
    Parses .comparison (spaced s (spaced (spell "IS") (spaced (spell "NOT") (spell "NULL"))))
      (.isNull true t) := by
  have his : Reads (spell "IS") [.is] := ⟨rfl, rfl⟩
  have hnull : Reads (spell "NULL") [.null] := ⟨rfl, rfl⟩
  obtain ⟨ts, v, hs, hv, ht⟩ := h
  exact ⟨_, _, hs.blank (his.blank (reads_not.blank hnull)), .isNull true hv, .isNull true ht⟩

/-- A list of placeholders is read as one. -/
theorem of_marks (n : Nat) : ∃ ts, Reads (marks n) ts ∧ Derives .list ts (markItems n) := by
  have hmark : Derives .disjunction [.mark] .mark := Derives.mark.up.up.up.up.up
  have hitems : ∀ n, ∃ ts, Reads (marks (n + 1)) ts ∧ Derives .items ts (markItems (n + 1)) := by
    intro n
    induction n with
    | zero => exact ⟨_, reads_mark, .last hmark⟩
    | succ n ih =>
      obtain ⟨ts, hr, hd⟩ := ih
      have hblank : Reads (.char ' ' :: marks (n + 1)) ts := reads_nil.blank hr
      exact ⟨_, reads_mark.ends ends_comma hblank, .more hmark hd⟩
  cases n with
  | zero => exact ⟨[], reads_nil, .empty⟩
  | succ n =>
    obtain ⟨ts, hr, hd⟩ := hitems n
    exact ⟨ts, hr, .full hd⟩

theorem of_isIn (h : Parses .arithmetic s t) (n : Nat) :
    Parses .comparison (spaced s (spaced (spell "IN") (Grammar.enclosed (marks n))))
      (.isIn t (markItems n)) := by
  have hin : Reads (spell "IN") [.isIn] := ⟨rfl, rfl⟩
  obtain ⟨ts, v, hs, hv, ht⟩ := h
  obtain ⟨us, hr, hd⟩ := of_marks n
  refine ⟨_, .isIn v (markItems n), hs.blank (hin.blank hr.group), ?_, ht.isIn (.refl _)⟩
  have hi := Derives.isIn hv hd
  rwa [List.append_assoc] at hi

theorem of_between (h : Parses .arithmetic s t) :
    Parses .comparison
      (spaced s (spaced (spell "BETWEEN") (spaced (spell "?") (spaced (spell "AND") (spell "?")))))
      (.between t .mark .mark) := by
  have hbetween : Reads (spell "BETWEEN") [.between] := ⟨rfl, rfl⟩
  have hmark : Derives .arithmetic [.mark] .mark := Derives.mark.up
  obtain ⟨ts, v, hs, hv, ht⟩ := h
  refine ⟨_, .between v .mark .mark,
    hs.blank (hbetween.blank (reads_mark.blank (reads_and.blank reads_mark))), ?_,
    ht.between (.refl _) (.refl _)⟩
  have hb := Derives.between hv hmark hmark
  rwa [List.append_assoc] at hb

end Parses

end Grammar

/-! ### Expressions -/

namespace Expr

/-- **An expression is read on the level of its shape.** -/
theorem Named.parses_level {e : Expr} (h : e.Named) : Parses e.shape.level e.symbols e.tree := by
  induction e with
  | column name => exact .of_name h
  | bound v => exact .of_mark
  | raw text values => exact ⟨_, _, reads_raw text, .raw text, .refl _⟩
  | arithmetic op left right ihl ihr => exact .of_arithmetic op (ihl h.1).primary (ihr h.2).primary
  | compare op left right ihl ihr =>
    exact .of_compare (.operator op) (Parses.reads_operator op) (ihl h.1).arithmetic
      (ihr h.2).arithmetic
  | like name pattern =>
    exact .of_compare .like ⟨rfl, rfl⟩ (Parses.of_name h).up Parses.of_mark.up
  | isNull name => exact .of_isNull (Parses.of_name h).up
  | isNotNull name => exact .of_isNotNull (Parses.of_name h).up
  | isIn name values => exact .of_isIn (Parses.of_name h).up values.length
  | between name low high => exact .of_between (Parses.of_name h).up
  | not e ih => exact .of_not (ih h).whole
  | and left right ihl ihr => exact .of_and (ihl h.1).conjunction (ihr h.2).conjunction
  | or left right ihl ihr => exact .of_or (ihl h.1).disjunction (ihr h.2).disjunction

end Expr

/-! ### Texts of the caller -/

namespace Grammar

/-- Every text of the caller stands between parentheses of its own. -/
inductive Grouped : List Symbol → Prop where
  | nil : Grouped []
  | char (c : Char) {l : List Symbol} (h : Grouped l) : Grouped (.char c :: l)
  | raw (text : String) {l : List Symbol} (h : Grouped l) :
    Grouped (.char '(' :: .raw text :: .char ')' :: l)

theorem grouped_spell (s : String) : Grouped (spell s) := by
  unfold spell
  induction s.toList with
  | nil => exact .nil
  | cons c l ih => exact .char c ih

theorem Grouped.append {l m : List Symbol} (hl : Grouped l) (hm : Grouped m) :
    Grouped (l ++ m) := by
  induction hl with
  | nil => exact hm
  | char c _ ih => exact .char c ih
  | raw text _ ih => exact .raw text ih

theorem Grouped.spaced {l m : List Symbol} (hl : Grouped l) (hm : Grouped m) :
    Grouped (spaced l m) :=
  hl.append (.char ' ' hm)

theorem Grouped.enclosed {l : List Symbol} (hl : Grouped l) : Grouped (enclosed l) :=
  .char '(' (hl.append (.char ')' .nil))

theorem grouped_marks (n : Nat) : Grouped (marks n) := by
  induction n with
  | zero => exact .nil
  | succ n ih =>
    cases n with
    | zero => exact grouped_spell "?"
    | succ n => exact (grouped_spell "?").append (.char ',' (.char ' ' ih))

/-- What stands around a text of the caller. -/
theorem Grouped.around {l : List Symbol} (h : Grouped l) {pre post : List Symbol} {text : String}
    (heq : l = pre ++ .raw text :: post) :
    ∃ pre' post', pre = pre' ++ [.char '('] ∧ post = .char ')' :: post' := by
  induction h generalizing pre with
  | nil => cases pre <;> cases heq
  | char c _ ih =>
    cases pre with
    | nil => cases heq
    | cons s pre =>
      obtain ⟨pre', post', rfl, rfl⟩ := ih (List.cons.inj heq).2
      exact ⟨s :: pre', post', rfl, rfl⟩
  | @raw text' l _ ih =>
    -- the text that is looked for is the second of these three symbols, or stands behind them
    rcases pre with - | ⟨a, - | ⟨b, - | ⟨c, pre⟩⟩⟩
    · cases heq
    · cases heq
      exact ⟨[], l, rfl, rfl⟩
    · cases heq
    · simp only [List.cons_append, List.cons.injEq] at heq
      obtain ⟨rfl, rfl, rfl, heq⟩ := heq
      obtain ⟨pre', post', rfl, rfl⟩ := ih heq
      exact ⟨_ :: _ :: _ :: pre', post', rfl, rfl⟩

end Grammar

namespace Expr

theorem grouped_enclosed {e : Expr} (h : e.shape ≠ .raw → Grouped e.symbols) :
    Grouped (enclosed e.symbols) := by
  cases e with
  | raw text values => exact .raw text .nil
  | _ => exact (h nofun).enclosed

/-- An operand is a text of the caller in parentheses, or all such texts in it are. -/
theorem grouped_wrapped {e : Expr} (h : e.shape ≠ .raw → Grouped e.symbols) {needed : Bool}
    (hn : e.shape = .raw → needed = true) : Grouped (wrapped needed e.symbols) := by
  cases needed with
  | true => exact grouped_enclosed h
  | false => exact h fun hr => Bool.noConfusion (hn hr)

theorem grouped_symbols {e : Expr} (h : e.shape ≠ .raw) : Grouped e.symbols := by
  induction e with
  | raw text values => exact absurd rfl h
  | column name => exact grouped_spell name
  | bound v => exact grouped_spell "?"
  | arithmetic op left right ihl ihr | compare op left right ihl ihr | and left right ihl ihr
  | or left right ihl ihr =>
    -- no operator takes a text of the caller without parentheses
    refine .spaced (grouped_wrapped ihl ?_) (.spaced (grouped_spell _) (grouped_wrapped ihr ?_))
    · intro hr
      rw [hr]
      rfl
    · intro hr
      rw [hr]
      rfl
  | like name pattern =>
    exact (grouped_spell name).spaced ((grouped_spell "LIKE").spaced (grouped_spell "?"))
  | isNull name =>
    exact (grouped_spell name).spaced ((grouped_spell "IS").spaced (grouped_spell "NULL"))
  | isNotNull name =>
    exact (grouped_spell name).spaced
      ((grouped_spell "IS").spaced ((grouped_spell "NOT").spaced (grouped_spell "NULL")))
  | isIn name values =>
    exact (grouped_spell name).spaced
      ((grouped_spell "IN").spaced (grouped_marks values.length).enclosed)
  | between name low high =>
    exact (grouped_spell name).spaced ((grouped_spell "BETWEEN").spaced ((grouped_spell "?").spaced
      ((grouped_spell "AND").spaced (grouped_spell "?"))))
  | not e ih => exact (grouped_spell "NOT").spaced (grouped_enclosed ih)

/-- **The parentheses that are left out do not change what is read.**  What is written for an
expression has one tree in the grammar, which is the tree of the expression but for the grouping of
consecutive `AND` and of consecutive `OR`; and a text of the caller is the whole of it or stands
between parentheses of its own. -/
theorem parses (e : Expr) (h : e.Named) :
    e.symbols.flatMap Symbol.chars = e.render.script.toList ∧
      (∃ t, Reassociated e.tree t ∧ ∀ u, Derives .whole (lex e.symbols) u ↔ u = t) ∧
      ∀ pre text post, e.symbols = pre ++ .raw text :: post →
        (pre = [] ∧ post = []) ∨
          ∃ pre' post', pre = pre' ++ [.char '('] ∧ post = .char ')' :: post' := by
  refine ⟨chars_symbols e, ?_, fun pre text post heq => ?_⟩
  · obtain ⟨ts, t, hr, hd, ht⟩ := h.parses_level.whole
    refine ⟨t, ht, fun u => ⟨fun hu => ?_, fun hu => ?_⟩⟩
    · rw [hr.tokens] at hu
      exact hu.unique hd
    · rw [hr.tokens, hu]
      exact hd
  · by_cases hs : e.shape = .raw
    · -- the text is the whole expression
      cases e with
      | raw text' values =>
        refine .inl ?_
        cases pre with
        | nil =>
          cases heq
          exact ⟨rfl, rfl⟩
        | cons s pre => cases pre <;> cases heq
      | _ => cases hs
    · exact .inr ((grouped_symbols hs).around heq)

/-- A text of the caller, a `BETWEEN` next to an `AND`, and a negation, in a disjunction. -/
def mixed : Expr :=
  .or (.and (.and (.raw "x OR y" []) (.between "a" (.integer 1) (.integer 2)))
      (.not (.compare .gt (.arithmetic .add (.column "t.n") (.bound (.integer 3)))
        (.bound (.integer 4)))))
    (.isIn "id" [.integer 5, .integer 6])

/-- What is written for `mixed` is read back. -/
theorem parses_mixed :
    mixed.Named ∧
      mixed.render.script =
        "(x OR y) AND a BETWEEN ? AND ? AND NOT (t.n + ? > ?) OR id IN (?, ?)" ∧
      ∃ t, Reassociated mixed.tree t ∧ ∀ u, Derives .whole (lex mixed.symbols) u ↔ u = t := by
  have hn : mixed.Named := ⟨⟨⟨trivial, rfl⟩, ⟨rfl, trivial⟩, trivial⟩, rfl⟩
  exact ⟨hn, rfl, (parses mixed hn).2.1⟩

end Expr

end BoundSql
