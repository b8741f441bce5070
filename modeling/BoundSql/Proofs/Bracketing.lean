import BoundSql.Query.Expr

/-!
# Brackets do not matter

Conditions that are combined by `AND`, or by `OR`, are put together two at a time, and a list of
them can be put together in many ways: a `Bracketing` is one of them.  All of them give the same
condition, with the same text, the same values and the same parentheses in whatever it becomes part
of later (`Expr.Context`).  It is the condition that `Expr.all` and `Expr.any` give for the list.

What later steps see of an expression is its `Condition`: its fragment and its shape.  Both
operators are one operation on conditions (`Condition.chained`), which is associative because its
results need no parentheses around themselves.  `Expr.unbracketed` is the main statement.
-/

namespace BoundSql

/-! ### Ways to put a list together -/

/-- A way to put the elements of a list together, two at a time. -/
inductive Bracketing (α : Type) where
  | leaf (a : α)
  | node (left right : Bracketing α)
deriving Repr

namespace Bracketing

variable {α β : Type}

/-- The elements from left to right. -/
def leaves : Bracketing α → List α
  | leaf a => [a]
  | node left right => left.leaves ++ right.leaves

/-- What the elements are put together to. -/
def combine (op : α → α → α) : Bracketing α → α
  | leaf a => a
  | node left right => op (left.combine op) (right.combine op)

/-- There is at least one element. -/
theorem exists_leaves_eq_cons (b : Bracketing α) : ∃ a as, b.leaves = a :: as := by
  induction b with
  | leaf a => exact ⟨a, [], rfl⟩
  | node left right ihl _ =>
    obtain ⟨a, as, h⟩ := ihl
    exact ⟨a, as ++ right.leaves, by rw [leaves, h, List.cons_append]⟩

section

variable {f : α → β} {op : α → α → α} {op' : β → β → β} [Std.Associative op']
  (hf : ∀ a a', f (op a a') = op' (f a) (f a'))

include hf

/-- Two lists that are put together from the left each, and then with each other. -/
theorem map_foldl_append (a a' : α) (as as' : List α) :
    f ((as ++ a' :: as').foldl op a) = f (op (as.foldl op a) (as'.foldl op a')) := by
  have hmap (x : α) (xs : List α) : f (xs.foldl op x) = (xs.map f).foldl op' (f x) := by
    rw [List.foldl_map]
    exact (List.foldl_hom f fun y z => (hf y z).symm).symm
  rw [List.foldl_append, List.foldl_cons, hmap, hf, List.foldl_assoc, hf, hmap a' as']

/-- **What is seen of the result does not depend on the brackets** if it is seen of an associative
operation: the elements can be put together from the left. -/
theorem map_combine {b : Bracketing α} {a : α} {as : List α} (h : b.leaves = a :: as) :
    f (b.combine op) = f (as.foldl op a) := by
  induction b generalizing a as with
  | leaf a' =>
    cases h
    rfl
  | node left right ihl ihr =>
    obtain ⟨x, xs, hx⟩ := left.exists_leaves_eq_cons
    obtain ⟨y, ys, hy⟩ := right.exists_leaves_eq_cons
    have hcons : x :: (xs ++ y :: ys) = a :: as := by rw [← h, leaves, hx, hy, List.cons_append]
    cases hcons
    rw [combine, hf, ihl hx, ihr hy, ← hf, map_foldl_append hf]

end

end Bracketing

/-! ### Connectives -/

namespace Expr

/-- An operator between two expressions. -/
inductive Connective where
  | arithmetic (op : Arithmetic)
  | compare (op : Operator)
  | and
  | or
deriving DecidableEq, Repr

namespace Connective

/-- The expression with the operator. -/
def join : Connective → Expr → Expr → Expr
  | arithmetic op => .arithmetic op
  | compare op => .compare op
  | and => .and
  | or => .or

/-- The text of the operator. -/
def sql : Connective → String
  | arithmetic op => op.sql
  | compare op => op.sql
  | and => "AND"
  | or => "OR"

/-- The operands that need parentheses. -/
def breaks : Connective → Shape → Bool
  | arithmetic _ => Shape.breaksArithmetic
  | compare _ => Shape.breaksComparison
  | and => Shape.breaksAnd
  | or => Shape.breaksOr

/-- The shape of the result. -/
def shape : Connective → Shape
  | arithmetic _ => .arithmetic
  | compare _ => .comparison
  | and => .and
  | or => .or

end Connective

/-! ### Later use -/

/-- Steps that make an expression part of a larger one. -/
inductive Context where
  | here
  | onLeft (k : Connective) (inner : Context) (right : Expr)
  | onRight (k : Connective) (left : Expr) (inner : Context)
  | not (inner : Context)
deriving Repr

/-- The larger expression. -/
def Context.fill : Context → Expr → Expr
  | here, e => e
  | onLeft k inner right, e => k.join (inner.fill e) right
  | onRight k left inner, e => k.join left (inner.fill e)
  | not inner, e => .not (inner.fill e)

end Expr

/-! ### Conditions -/

/-- What later steps see of an expression: its text with its values, and how tightly it holds
together. -/
structure Condition where
  fragment : Fragment
  shape : Expr.Shape
deriving DecidableEq, Repr

/-- The condition of an expression. -/
def Expr.condition (e : Expr) : Condition := ⟨e.render, e.shape⟩

namespace Condition

open BoundSql.Expr (Connective binary grouped)

/-- The fragment as an operand, in parentheses if its shape needs them. -/
def operand (k : Connective) (c : Condition) : Fragment := grouped (k.breaks c.shape) c.fragment

/-- Two conditions around an operator. -/
def join (k : Connective) (c d : Condition) : Condition :=
  ⟨binary k.sql (c.operand k) (d.operand k), k.shape⟩

/-- The condition of an expression is made of the conditions of its operands. -/
theorem condition_join (k : Connective) (a b : Expr) :
    (k.join a b).condition = join k a.condition b.condition := by
  cases k <;> rfl

/-- An operand that was made by the operator itself, if it needs no parentheses then. -/
theorem operand_join {k : Connective} (hk : k.breaks k.shape = false) (c d : Condition) :
    (join k c d).operand k = binary k.sql (c.operand k) (d.operand k) := by
  rw [operand, join, hk]
  rfl

/-- **An operator that needs no parentheses around its own results is associative**, in the texts
and not only in what they mean. -/
theorem join_assoc {k : Connective} (hk : k.breaks k.shape = false) (c d e : Condition) :
    join k (join k c d) e = join k c (join k d e) := by
  rw [join, operand_join hk, join, operand_join hk]
  simp only [binary, Fragment.append_assoc]

theorem values_operand (k : Connective) (c : Condition) :
    (c.operand k).values = c.fragment.values := by
  rw [operand, grouped]
  split
  · exact List.append_nil _
  · rfl

/-- The values of the left operand come first. -/
theorem values_join (k : Connective) (c d : Condition) :
    (join k c d).fragment.values = c.fragment.values ++ d.fragment.values := by
  rw [join, binary, Fragment.values_append, Fragment.values_append, Fragment.values_text,
    List.append_nil, values_operand, values_operand]

end Condition

namespace Expr

/-- **The condition of an expression is all that later steps see of it.** -/
theorem Context.condition_fill (c : Context) {a b : Expr} (h : a.condition = b.condition) :
    (c.fill a).condition = (c.fill b).condition := by
  induction c with
  | here => exact h
  | onLeft k inner right ih =>
    rw [fill, fill, Condition.condition_join, Condition.condition_join, ih]
  | onRight k left inner ih =>
    rw [fill, fill, Condition.condition_join, Condition.condition_join, ih]
  | not inner ih =>
    have hrender : (inner.fill a).render = (inner.fill b).render := congrArg Condition.fragment ih
    have hnot (e : Expr) : e.not.condition =
        ⟨.text "NOT " ++ e.render.parenthesized, .not⟩ := rfl
    rw [fill, fill, hnot, hnot, hrender]

/-! ### Chains of conditions -/

/-- However conditions are put together by an operator, the result is the condition of the list. -/
structure Unbracketed (op : Expr → Expr → Expr) (ofList : List Expr → Option Expr) : Prop where
  /-- The list has a condition, and whatever the brackets are, the result is this condition: in its
  text, in its values and in all that becomes of it. -/
  same : ∀ b : Bracketing Expr, ∃ e, ofList b.leaves = some e ∧
    ∀ c : Context, (c.fill (b.combine op)).condition = (c.fill e).condition
  /-- The values follow each other as the conditions do. -/
  values : ∀ b : Bracketing Expr,
    (b.combine op).render.values = b.leaves.flatMap fun e => e.render.values
  /-- Two lists that are not empty can be put together one by one first. -/
  append : ∀ x xs y ys, ∃ a b e, ofList (x :: xs) = some a ∧ ofList (y :: ys) = some b ∧
    ofList (x :: xs ++ y :: ys) = some e ∧
      ∀ c : Context, (c.fill e).condition = (c.fill (op a b)).condition

theorem unbracketed_of_breaks {k : Connective} (hk : k.breaks k.shape = false)
    {ofList : List Expr → Option Expr}
    (hlist : ∀ e es, ofList (e :: es) = some (es.foldl k.join e)) : Unbracketed k.join ofList := by
  have : Std.Associative (Condition.join k) := ⟨Condition.join_assoc hk⟩
  have hjoin := Condition.condition_join k
  refine ⟨fun b => ?_, fun b => ?_, fun x xs y ys => ?_⟩
  · obtain ⟨a, as, h⟩ := b.exists_leaves_eq_cons
    refine ⟨as.foldl k.join a, by rw [h, hlist], fun c => ?_⟩
    exact c.condition_fill (Bracketing.map_combine hjoin h)
  · induction b with
    | leaf a => exact (List.flatMap_singleton _ _).symm
    | node left right ihl ihr =>
      have hvalues : (k.join (left.combine k.join) (right.combine k.join)).render.values = _ :=
        (congrArg (fun c => c.fragment.values) (hjoin _ _)).trans (Condition.values_join k _ _)
      rw [Bracketing.combine, hvalues, Bracketing.leaves, List.flatMap_append, ← ihl, ← ihr]
      rfl
  · refine ⟨_, _, _, hlist x xs, hlist y ys, hlist x (xs ++ y :: ys), fun c => ?_⟩
    exact c.condition_fill (Bracketing.map_foldl_append hjoin x y xs ys)

/-- **Brackets do not matter**: conditions combined by `AND`, or by `OR`, in any way are one and the
same condition, the one of the list. -/
theorem unbracketed : Unbracketed .and all ∧ Unbracketed .or any :=
  ⟨unbracketed_of_breaks (k := .and) rfl fun _ _ => rfl,
    unbracketed_of_breaks (k := .or) rfl fun _ _ => rfl⟩

/-- Text of the caller is put in parentheses on either side, a conjunction is not. -/
example : (Bracketing.combine Expr.and (.node (.leaf (.raw "a" [.null]))
    (.node (.leaf (.isNull "b")) (.leaf (.or (.isNull "c") (.isNull "d")))))).render =
      ⟨"(a) AND b IS NULL AND (c IS NULL OR d IS NULL)", [.null]⟩ := by
  decide

end Expr

end BoundSql
