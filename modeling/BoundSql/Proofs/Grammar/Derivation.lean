import BoundSql.Proofs.Grammar.Lexer

/-!
# The grammar of expressions

The grammar has a level for each step in which operators bind: `OR` binds least, then `AND`, then
`NOT`, then one comparison, then one arithmetic operator, then a name, a placeholder or an
expression in parentheses.  A text of the caller stands for a whole expression.  `Grammar.Derives`
relates the tokens of a level to their tree.

`Derives.unique` is the main statement: the grammar is unambiguous.  More is shown by induction:
also a beginning of a list of tokens has no more than one tree, if what follows it cannot go on with
the level (`Determined`).  Each production is treated on its own, and `Token.rank` says what can go
on with which level.
-/

namespace BoundSql

namespace Grammar

/-! ### Trees and productions -/

/-- An expression without the values of its placeholders.  The list of `isIn` is a chain of `item`
that ends with `none`. -/
inductive Tree where
  | name (s : String)
  | mark
  | raw (text : String)
  | arithmetic (op : Arithmetic) (l r : Tree)
  | compare (c : Comparator) (l r : Tree)
  | isNull (negated : Bool) (t : Tree)
  | isIn (t items : Tree)
  | none
  | item (t rest : Tree)
  | between (t low high : Tree)
  | not (t : Tree)
  | and (l r : Tree)
  | or (l r : Tree)
deriving DecidableEq, Repr

/-- A level of the grammar. -/
inductive Level where
  | primary
  | arithmetic
  | comparison
  | negation
  | conjunction
  | disjunction
  /-- Expressions with commas in between, at least one. -/
  | items
  | list
  /-- An expression, or a text of the caller. -/
  | whole
deriving DecidableEq, Repr

/-- The tokens of `IS NULL` and of `IS NOT NULL`. -/
def nullWords (negated : Bool) : List Token :=
  .is :: if negated then [.not, .null] else [.null]

/-- The tokens are an expression of the level with this tree. -/
inductive Derives : Level → List Token → Tree → Prop where
  | name (s : String) : Derives .primary [.name s] (.name s)
  | mark : Derives .primary [.mark] .mark
  | group {ts : List Token} {t : Tree} (h : Derives .whole ts t) :
    Derives .primary (.left :: ts ++ [.right]) t
  | operand {ts : List Token} {t : Tree} (h : Derives .primary ts t) : Derives .arithmetic ts t
  | arithmetic (op : Arithmetic) {ts us : List Token} {t u : Tree} (h : Derives .primary ts t)
    (h' : Derives .primary us u) :
    Derives .arithmetic (ts ++ .arithmetic op :: us) (.arithmetic op t u)
  | plain {ts : List Token} {t : Tree} (h : Derives .arithmetic ts t) : Derives .comparison ts t
  | compare (c : Comparator) {ts us : List Token} {t u : Tree} (h : Derives .arithmetic ts t)
    (h' : Derives .arithmetic us u) :
    Derives .comparison (ts ++ .compare c :: us) (.compare c t u)
  | isNull (negated : Bool) {ts : List Token} {t : Tree} (h : Derives .arithmetic ts t) :
    Derives .comparison (ts ++ nullWords negated) (.isNull negated t)
  | isIn {ts us : List Token} {t u : Tree} (h : Derives .arithmetic ts t)
    (h' : Derives .list us u) :
    Derives .comparison (ts ++ .isIn :: .left :: us ++ [.right]) (.isIn t u)
  | between {ts us vs : List Token} {t u v : Tree} (h : Derives .arithmetic ts t)
    (h' : Derives .arithmetic us u) (h'' : Derives .arithmetic vs v) :
    Derives .comparison (ts ++ .between :: us ++ .and :: vs) (.between t u v)
  | positive {ts : List Token} {t : Tree} (h : Derives .comparison ts t) : Derives .negation ts t
  | not {ts : List Token} {t : Tree} (h : Derives .negation ts t) :
    Derives .negation (.not :: ts) (.not t)
  | single {ts : List Token} {t : Tree} (h : Derives .negation ts t) : Derives .conjunction ts t
  | and {ts us : List Token} {t u : Tree} (h : Derives .negation ts t)
    (h' : Derives .conjunction us u) : Derives .conjunction (ts ++ .and :: us) (.and t u)
  | conjunction {ts : List Token} {t : Tree} (h : Derives .conjunction ts t) :
    Derives .disjunction ts t
  | or {ts us : List Token} {t u : Tree} (h : Derives .conjunction ts t)
    (h' : Derives .disjunction us u) : Derives .disjunction (ts ++ .or :: us) (.or t u)
  | last {ts : List Token} {t : Tree} (h : Derives .disjunction ts t) :
    Derives .items ts (.item t .none)
  | more {ts us : List Token} {t u : Tree} (h : Derives .disjunction ts t)
    (h' : Derives .items us u) : Derives .items (ts ++ .comma :: us) (.item t u)
  | empty : Derives .list [] .none
  | full {ts : List Token} {t : Tree} (h : Derives .items ts t) : Derives .list ts t
  | expression {ts : List Token} {t : Tree} (h : Derives .disjunction ts t) : Derives .whole ts t
  | raw (text : String) : Derives .whole [.raw text] (.raw text)

/-! ### What can follow a level -/

/-- How loosely a level binds. -/
def Level.rank : Level → Nat
  | primary => 0
  | arithmetic => 1
  | comparison => 2
  | negation => 3
  | conjunction => 4
  | disjunction => 5
  | items => 6
  | whole => 6
  | list => 7

/-- The rank of the tightest level that a token can go on with, and more for a token that goes on
with none. -/
def Token.rank : Token → Nat
  | arithmetic _ => 1
  | compare _ | is | isIn | between => 2
  | and => 4
  | or => 5
  | comma => 6
  | right => 8
  | _ => 7

/-- What follows cannot go on with the level. -/
def Stops (l : Level) (x : List Token) : Prop := ∀ t ∈ x.head?, l.rank < t.rank

theorem stops_nil (l : Level) : Stops l [] := nofun

theorem stops_cons {l : Level} {t : Token} {x : List Token} :
    Stops l (t :: x) ↔ l.rank < t.rank := by
  refine ⟨fun h => h t rfl, fun h u hu => ?_⟩
  cases hu
  exact h

theorem stops_right (l : Level) (x : List Token) : Stops l (.right :: x) := by
  rw [stops_cons]
  cases l <;> decide

theorem Stops.mono {l m : Level} {x : List Token} (h : Stops l x) (hm : m.rank ≤ l.rank) :
    Stops m x :=
  fun t ht => Nat.lt_of_le_of_lt hm (h t ht)

/-! ### What a level begins with -/

/-- The rank of the tightest level that can begin with a token. -/
def Token.entry : Token → Nat
  | name _ | mark | left => 0
  | not => 3
  | raw _ => 6
  | _ => 9

/-- An expression begins with a token that its level can begin with. -/
theorem Derives.begins {l : Level} {ts : List Token} {t : Tree} (h : Derives l ts t)
    (hl : l ≠ .list) : ∃ a us, ts = a :: us ∧ a.entry ≤ l.rank := by
  induction h with
  | name s => exact ⟨_, _, rfl, Nat.le_refl 0⟩
  | mark => exact ⟨_, _, rfl, by decide⟩
  | group h _ => exact ⟨_, _, rfl, by decide⟩
  | not h _ => exact ⟨_, _, rfl, by decide⟩
  | raw text => exact ⟨_, _, rfl, Nat.le_refl 6⟩
  | empty => exact absurd rfl hl
  | full h _ => exact absurd rfl hl
  | operand h ih | plain h ih | positive h ih | single h ih | conjunction h ih | last h ih
  | expression h ih =>
    obtain ⟨a, us, rfl, ha⟩ := ih (by decide)
    exact ⟨a, us, rfl, Nat.le_trans ha (by decide)⟩
  | arithmetic op h h' ih _ | compare c h h' ih _ | isNull n h ih | isIn h h' ih _
  | between h h' h'' ih _ _ | and h h' ih _ | or h h' ih _ | more h h' ih _ =>
    obtain ⟨a, us, rfl, ha⟩ := ih (by decide)
    exact ⟨a, _, rfl, Nat.le_trans ha (by decide)⟩

/-! ### One tree for each beginning -/

/-- Among the beginnings of a list of tokens that cannot go on with the level, this one with this
tree is the only one. -/
def Determined (l : Level) (ts : List Token) (t : Tree) : Prop :=
  ∀ ⦃us : List Token⦄ ⦃u : Tree⦄ ⦃x y : List Token⦄, Derives l us u → Stops l x → Stops l y →
    ts ++ x = us ++ y → ts = us ∧ t = u ∧ x = y

section

variable {l : Level} {ts us : List Token} {t u : Tree}

theorem determined_name (s : String) : Determined .primary [.name s] (.name s) := by
  intro us u x y h _ _ heq
  cases h with
  | name s' =>
    cases heq
    exact ⟨rfl, rfl, rfl⟩
  | mark => cases heq
  | group h => cases heq

theorem determined_mark : Determined .primary [.mark] .mark := by
  intro us u x y h _ _ heq
  cases h with
  | name s' => cases heq
  | mark =>
    cases heq
    exact ⟨rfl, rfl, rfl⟩
  | group h => cases heq

/-- A parenthesis ends what is in parentheses. -/
theorem determined_group (ih : Determined .whole ts t) :
    Determined .primary (.left :: ts ++ [.right]) t := by
  intro us u x y h _ _ heq
  cases h with
  | name s' => cases heq
  | mark => cases heq
  | @group vs _ h =>
    simp only [List.cons_append, List.append_assoc, List.nil_append, List.cons.injEq,
      true_and] at heq
    obtain ⟨rfl, rfl, hxy⟩ := ih h (stops_right _ _) (stops_right _ _) heq
    cases hxy
    exact ⟨rfl, rfl, rfl⟩

end

/-! ### Operands with separators -/

/-- The productions of a level are one operand, and an operand with more behind a separator. -/
structure Chain {κ : Type} (l head tail : Level) (separator : κ → Token) (one : Tree → Tree)
    (more : κ → Tree → Tree → Tree) : Prop where
  inv : ∀ ts t, Derives l ts t → (∃ u, Derives head ts u ∧ t = one u) ∨
    ∃ k us vs u v, Derives head us u ∧ Derives tail vs v ∧ ts = us ++ separator k :: vs ∧
      t = more k u v
  injective : ∀ j k, separator j = separator k → j = k
  rank : ∀ k, (separator k).rank = l.rank
  head_lt : head.rank < l.rank
  tail_le : tail.rank ≤ l.rank

namespace Chain

variable {κ : Type} {l head tail : Level} {separator : κ → Token} {one : Tree → Tree}
  {more : κ → Tree → Tree → Tree}

/-- A separator ends an operand. -/
theorem stops (c : Chain l head tail separator one more) (k : κ) (x : List Token) :
    Stops head (separator k :: x) := by
  rw [stops_cons, c.rank]
  exact c.head_lt

/-- No separator can follow. -/
theorem not_stops (c : Chain l head tail separator one more) (k : κ) (x : List Token) :
    ¬Stops l (separator k :: x) := by
  rw [stops_cons, c.rank]
  exact Nat.lt_irrefl l.rank

theorem determined_one (c : Chain l head tail separator one more) {ts : List Token} {t : Tree}
    (ih : Determined head ts t) : Determined l ts (one t) := by
  intro us u x y h hx hy heq
  have hx' := hx.mono (Nat.le_of_lt c.head_lt)
  rcases c.inv us u h with ⟨w, hw, rfl⟩ | ⟨k, vs, ws, v, w, hv, hw, rfl, rfl⟩
  · obtain ⟨rfl, rfl, hxy⟩ := ih hw hx' (hy.mono (Nat.le_of_lt c.head_lt)) heq
    exact ⟨rfl, rfl, hxy⟩
  · -- the operand is the same, so a separator follows
    rw [List.append_assoc, List.cons_append] at heq
    obtain ⟨rfl, rfl, rfl⟩ := ih hv hx' (c.stops k _) heq
    exact absurd hx (c.not_stops k _)

theorem determined_more (c : Chain l head tail separator one more) (k : κ) {ts us : List Token}
    {t u : Tree} (ih : Determined head ts t) (ih' : Determined tail us u) :
    Determined l (ts ++ separator k :: us) (more k t u) := by
  intro us' u' x y h hx hy heq
  rw [List.append_assoc, List.cons_append] at heq
  rcases c.inv us' u' h with ⟨w, hw, rfl⟩ | ⟨j, vs, ws, v, w, hv, hw, rfl, rfl⟩
  · obtain ⟨rfl, rfl, rfl⟩ := ih hw (c.stops k _) (hy.mono (Nat.le_of_lt c.head_lt)) heq
    exact absurd hy (c.not_stops k _)
  · rw [List.append_assoc, List.cons_append] at heq
    obtain ⟨rfl, rfl, htail⟩ := ih hv (c.stops k _) (c.stops j _) heq
    obtain ⟨hk, hrest⟩ := List.cons.inj htail
    obtain rfl := c.injective k j hk
    obtain ⟨rfl, rfl, hxy⟩ := ih' hw (hx.mono c.tail_le) (hy.mono c.tail_le) hrest
    exact ⟨rfl, rfl, hxy⟩

end Chain

theorem chain_arithmetic :
    Chain .arithmetic .primary .primary Token.arithmetic id Tree.arithmetic where
  inv := by
    intro ts t h
    cases h with
    | operand h => exact .inl ⟨_, h, rfl⟩
    | arithmetic op h h' => exact .inr ⟨op, _, _, _, _, h, h', rfl, rfl⟩
  injective := by
    intro j k h
    cases h
    rfl
  rank _ := rfl
  head_lt := by decide
  tail_le := by decide

theorem chain_conjunction :
    Chain .conjunction .negation .conjunction (fun _ : Unit => Token.and) id
      fun _ => Tree.and where
  inv := by
    intro ts t h
    cases h with
    | single h => exact .inl ⟨_, h, rfl⟩
    | and h h' => exact .inr ⟨(), _, _, _, _, h, h', rfl, rfl⟩
  injective _ _ _ := rfl
  rank _ := rfl
  head_lt := by decide
  tail_le := by decide

theorem chain_disjunction :
    Chain .disjunction .conjunction .disjunction (fun _ : Unit => Token.or) id
      fun _ => Tree.or where
  inv := by
    intro ts t h
    cases h with
    | conjunction h => exact .inl ⟨_, h, rfl⟩
    | or h h' => exact .inr ⟨(), _, _, _, _, h, h', rfl, rfl⟩
  injective _ _ _ := rfl
  rank _ := rfl
  head_lt := by decide
  tail_le := by decide

theorem chain_items :
    Chain .items .disjunction .items (fun _ : Unit => Token.comma) (Tree.item · .none)
      fun _ => Tree.item where
  inv := by
    intro ts t h
    cases h with
    | last h => exact .inl ⟨_, h, rfl⟩
    | more h h' => exact .inr ⟨(), _, _, _, _, h, h', rfl, rfl⟩
  injective _ _ _ := rfl
  rank _ := rfl
  head_lt := by decide
  tail_le := by decide

/-! ### Comparisons -/

/-- What can follow the first operand of a comparison, and what it makes of the operand's tree. -/
inductive Tail : List Token → (Tree → Tree) → Prop where
  | plain : Tail [] id
  | compare (c : Comparator) {us : List Token} {u : Tree} (h : Derives .arithmetic us u) :
    Tail (.compare c :: us) (Tree.compare c · u)
  | isNull (negated : Bool) : Tail (nullWords negated) (Tree.isNull negated)
  | isIn {us : List Token} {u : Tree} (h : Derives .list us u) :
    Tail (.isIn :: .left :: us ++ [.right]) (Tree.isIn · u)
  | between {us vs : List Token} {u v : Tree} (h : Derives .arithmetic us u)
    (h' : Derives .arithmetic vs v) : Tail (.between :: us ++ .and :: vs) (Tree.between · u v)

/-- A comparison is an operand and what follows it. -/
theorem Derives.tail {ts : List Token} {t : Tree} (h : Derives .comparison ts t) :
    ∃ us u vs f, Derives .arithmetic us u ∧ Tail vs f ∧ ts = us ++ vs ∧ t = f u := by
  cases h with
  | plain h => exact ⟨_, _, _, _, h, .plain, (List.append_nil _).symm, rfl⟩
  | compare c h h' => exact ⟨_, _, _, _, h, .compare c h', rfl, rfl⟩
  | isNull negated h => exact ⟨_, _, _, _, h, .isNull negated, rfl, rfl⟩
  | isIn h h' => exact ⟨_, _, _, _, h, .isIn h', List.append_assoc _ _ _, rfl⟩
  | between h h' h'' => exact ⟨_, _, _, _, h, .between h' h'', List.append_assoc _ _ _, rfl⟩

/-- What follows the first operand ends it. -/
theorem Tail.stops {vs : List Token} {f : Tree → Tree} (h : Tail vs f) {x : List Token}
    (hx : Stops .comparison x) : Stops .arithmetic (vs ++ x) := by
  cases h with
  | plain => exact hx.mono (by decide)
  | _ => exact stops_cons.2 (Nat.lt_succ_self 1)

/-- Among what can follow the first operand, this is the only one that the tokens begin with. -/
def TailDetermined (vs : List Token) (f : Tree → Tree) : Prop :=
  ∀ ⦃ws : List Token⦄ ⦃g : Tree → Tree⦄ ⦃x y : List Token⦄, Tail ws g → Stops .comparison x →
    Stops .comparison y → vs ++ x = ws ++ y → vs = ws ∧ f = g ∧ x = y

theorem determined_comparison {ts vs : List Token} {t : Tree} {f : Tree → Tree}
    (ih : Determined .arithmetic ts t) (hv : Tail vs f) (hd : TailDetermined vs f) :
    Determined .comparison (ts ++ vs) (f t) := by
  intro us u x y h hx hy heq
  obtain ⟨us, u, ws, g, hu, hw, rfl, rfl⟩ := h.tail
  rw [List.append_assoc, List.append_assoc] at heq
  obtain ⟨rfl, rfl, hrest⟩ := ih hu (hv.stops hx) (hw.stops hy) heq
  obtain ⟨rfl, rfl, hxy⟩ := hd hw hx hy hrest
  exact ⟨rfl, rfl, hxy⟩

/-- What can follow an operand cannot follow a comparison. -/
theorem Tail.not_stops {vs : List Token} {f : Tree → Tree} (h : Tail vs f) (hv : vs ≠ [])
    (x : List Token) : ¬Stops .comparison (vs ++ x) := by
  cases h with
  | plain => exact absurd rfl hv
  | _ => exact fun h => absurd (stops_cons.1 h) (Nat.lt_irrefl 2)

theorem tailDetermined_plain : TailDetermined [] id := by
  intro ws g x y h hx hy heq
  by_cases hw : ws = []
  · subst hw
    cases h
    exact ⟨rfl, rfl, heq⟩
  · rw [List.nil_append] at heq
    exact absurd (heq ▸ hx) (h.not_stops hw y)

theorem tailDetermined_compare (c : Comparator) {us : List Token} {u : Tree}
    (hu : Derives .arithmetic us u) (ih : Determined .arithmetic us u) :
    TailDetermined (.compare c :: us) (Tree.compare c · u) := by
  intro ws g x y h hx hy heq
  cases h with
  | plain =>
    rw [List.nil_append] at heq
    exact absurd (heq ▸ hy) ((Tail.compare c hu).not_stops nofun x)
  | compare c' h' =>
    obtain ⟨hc, hrest⟩ := List.cons.inj heq
    cases hc
    obtain ⟨rfl, rfl, hxy⟩ := ih h' (hx.mono (by decide)) (hy.mono (by decide)) hrest
    exact ⟨rfl, rfl, hxy⟩
  | isNull negated => cases heq
  | isIn h' => cases heq
  | between h' h'' => cases heq

theorem tailDetermined_isNull (negated : Bool) :
    TailDetermined (nullWords negated) (Tree.isNull negated) := by
  intro ws g x y h hx hy heq
  cases h with
  | plain =>
    rw [List.nil_append] at heq
    exact absurd (heq ▸ hy) ((Tail.isNull negated).not_stops nofun x)
  | compare c' h' => cases negated <;> cases heq
  | isNull negated' =>
    cases negated <;> cases negated' <;> cases heq
    · exact ⟨rfl, rfl, rfl⟩
    · exact ⟨rfl, rfl, rfl⟩
  | isIn h' => cases negated <;> cases heq
  | between h' h'' => cases negated <;> cases heq

theorem tailDetermined_isIn {us : List Token} {u : Tree} (hu : Derives .list us u)
    (ih : Determined .list us u) :
    TailDetermined (.isIn :: .left :: us ++ [.right]) (Tree.isIn · u) := by
  intro ws g x y h hx hy heq
  cases h with
  | plain =>
    rw [List.nil_append] at heq
    exact absurd (heq ▸ hy) ((Tail.isIn hu).not_stops nofun x)
  | compare c' h' => cases heq
  | isNull negated => cases heq
  | @isIn vs _ h' =>
    simp only [List.cons_append, List.append_assoc, List.nil_append, List.cons.injEq,
      true_and] at heq
    obtain ⟨rfl, rfl, hxy⟩ := ih h' (stops_right _ _) (stops_right _ _) heq
    cases hxy
    exact ⟨rfl, rfl, rfl⟩
  | between h' h'' => cases heq

/-- The first `AND` behind `BETWEEN` belongs to it. -/
theorem tailDetermined_between {us vs : List Token} {u v : Tree} (hu : Derives .arithmetic us u)
    (hv : Derives .arithmetic vs v) (ih : Determined .arithmetic us u)
    (ih' : Determined .arithmetic vs v) :
    TailDetermined (.between :: us ++ .and :: vs) (Tree.between · u v) := by
  intro ws g x y h hx hy heq
  cases h with
  | plain =>
    rw [List.nil_append] at heq
    exact absurd (heq ▸ hy) ((Tail.between hu hv).not_stops nofun x)
  | compare c' h' => cases heq
  | isNull negated => cases heq
  | isIn h' => cases heq
  | @between us' vs' _ _ h' h'' =>
    simp only [List.cons_append, List.append_assoc, List.cons.injEq, true_and] at heq
    -- an operand of arithmetic ends in front of any `AND`
    have hand : ∀ z, Stops .arithmetic (.and :: z) := fun z => stops_cons.2 (by decide)
    obtain ⟨rfl, rfl, htail⟩ := ih h' (hand _) (hand _) heq
    obtain ⟨rfl, rfl, hxy⟩ := ih' h'' (hx.mono (by decide)) (hy.mono (by decide))
      (List.cons.inj htail).2
    exact ⟨rfl, rfl, hxy⟩

/-! ### Negations, lists and whole expressions -/

theorem determined_positive {ts : List Token} {t : Tree} (h : Derives .comparison ts t)
    (ih : Determined .comparison ts t) : Determined .negation ts t := by
  intro us u x y hu hx hy heq
  cases hu with
  | positive hu => exact ih hu (hx.mono (by decide)) (hy.mono (by decide)) heq
  | not hu =>
    -- no comparison begins with `NOT`
    obtain ⟨a, vs, rfl, ha⟩ := h.begins (by decide)
    cases (List.cons.inj heq).1
    exact absurd ha (by decide)

theorem determined_not {ts : List Token} {t : Tree} (ih : Determined .negation ts t) :
    Determined .negation (.not :: ts) (.not t) := by
  intro us u x y hu hx hy heq
  cases hu with
  | positive hu =>
    obtain ⟨a, vs, rfl, ha⟩ := hu.begins (by decide)
    cases (List.cons.inj heq).1
    exact absurd ha (by decide)
  | not hu =>
    obtain ⟨rfl, rfl, hxy⟩ := ih hu hx hy (List.cons.inj heq).2
    exact ⟨rfl, rfl, hxy⟩

/-- An expression does not begin where a list ends. -/
theorem Derives.not_stops {ts : List Token} {t : Tree} (h : Derives .items ts t)
    (x : List Token) : ¬Stops .list (ts ++ x) := by
  obtain ⟨a, us, rfl, ha⟩ := h.begins (by decide)
  intro hs
  have hrank : 7 < a.rank := stops_cons.1 hs
  cases a with
  | right => exact absurd ha (by decide)
  | _ =>
    simp only [Token.rank] at hrank
    omega

theorem determined_empty : Determined .list [] .none := by
  intro us u x y hu hx hy heq
  cases hu with
  | empty => exact ⟨rfl, rfl, heq⟩
  | full hu =>
    rw [List.nil_append] at heq
    exact absurd (heq ▸ hx) (hu.not_stops y)

theorem determined_full {ts : List Token} {t : Tree} (h : Derives .items ts t)
    (ih : Determined .items ts t) : Determined .list ts t := by
  intro us u x y hu hx hy heq
  cases hu with
  | empty =>
    rw [List.nil_append] at heq
    exact absurd (heq ▸ hy) (h.not_stops x)
  | full hu => exact ih hu (hx.mono (by decide)) (hy.mono (by decide)) heq

theorem determined_expression {ts : List Token} {t : Tree} (h : Derives .disjunction ts t)
    (ih : Determined .disjunction ts t) : Determined .whole ts t := by
  intro us u x y hu hx hy heq
  cases hu with
  | expression hu => exact ih hu (hx.mono (by decide)) (hy.mono (by decide)) heq
  | raw text =>
    obtain ⟨a, vs, rfl, ha⟩ := h.begins (by decide)
    cases (List.cons.inj heq).1
    exact absurd ha (Nat.not_succ_le_self 5)

theorem determined_raw (text : String) : Determined .whole [.raw text] (.raw text) := by
  intro us u x y hu hx hy heq
  cases hu with
  | expression hu =>
    obtain ⟨a, vs, rfl, ha⟩ := hu.begins (by decide)
    cases (List.cons.inj heq).1
    exact absurd ha (Nat.not_succ_le_self 5)
  | raw text' =>
    cases heq
    exact ⟨rfl, rfl, rfl⟩

/-! ### The grammar is unambiguous -/

/-- **Each beginning has one tree.** -/
theorem Derives.determined {l : Level} {ts : List Token} {t : Tree} (h : Derives l ts t) :
    Determined l ts t := by
  induction h with
  | name s => exact determined_name s
  | mark => exact determined_mark
  | group _ ih => exact determined_group ih
  | operand _ ih => exact chain_arithmetic.determined_one ih
  | arithmetic op _ _ ih ih' => exact chain_arithmetic.determined_more op ih ih'
  | plain h ih =>
    have hd := determined_comparison ih .plain tailDetermined_plain
    rwa [List.append_nil] at hd
  | compare c _ h' ih ih' =>
    have hd := determined_comparison ih (.compare c h') (tailDetermined_compare c h' ih')
    exact hd
  | isNull negated _ ih =>
    have hd := determined_comparison ih (.isNull negated) (tailDetermined_isNull negated)
    exact hd
  | isIn _ h' ih ih' =>
    have hd := determined_comparison ih (.isIn h') (tailDetermined_isIn h' ih')
    rwa [← List.append_assoc] at hd
  | between _ h' h'' ih ih' ih'' =>
    have hd := determined_comparison ih (.between h' h'') (tailDetermined_between h' h'' ih' ih'')
    rwa [← List.append_assoc] at hd
  | positive h ih => exact determined_positive h ih
  | not _ ih => exact determined_not ih
  | single _ ih => exact chain_conjunction.determined_one ih
  | and _ _ ih ih' => exact chain_conjunction.determined_more () ih ih'
  | conjunction _ ih => exact chain_disjunction.determined_one ih
  | or _ _ ih ih' => exact chain_disjunction.determined_more () ih ih'
  | last _ ih => exact chain_items.determined_one ih
  | more _ _ ih ih' => exact chain_items.determined_more () ih ih'
  | empty => exact determined_empty
  | full h ih => exact determined_full h ih
  | expression h ih => exact determined_expression h ih
  | raw text => exact determined_raw text

/-- **The grammar is unambiguous.** -/
theorem Derives.unique {l : Level} {ts : List Token} {t u : Tree} (h : Derives l ts t)
    (h' : Derives l ts u) : t = u :=
  (h.determined h' (stops_nil l) (stops_nil l) rfl).2.1

end Grammar

end BoundSql
