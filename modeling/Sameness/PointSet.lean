import Sameness.Basic
import Sameness.Compound.Basic

/-!
# Point sets

A predicate built from a comparison is read as a set: the points named in it, joined, met,
complemented and edited one point at a time. Membership of `x` in the set of a point `a` is `c x a`,
with the named point on the right, which matters when the comparison is not symmetric.

* A `PointExpr` over a comparison `c` is an expression for such a set. It names points of the type
  that `c` compares, and `PointExpr.denote` is the set it stands for. A product expression is over
  the comparison of pairs, so the language changes its type there.
* An **edit** adds a point to a set or removes one; a list of edits is applied from left to right,
  and `Edit.lastAbout?` is the last of them whose point a given value is the same as.
* An expression is **pointwise** when it is built from named points and set operations alone.
  `PointExpr.mentioned` lists the points it names, `PointExpr.elsewhere` is the answer it has for
  values that are none of them, and `PointExpr.exceptions` are the named points with the other
  answer.
-/

namespace Sameness

/-- A set of values, given by its membership test. -/
abbrev PointSet (α : Type) := α → Bool

namespace PointSet

variable {α β : Type}

/-! ### Set operations -/

/-- The points outside `p`. -/
def complement (p : PointSet α) : PointSet α := fun x => !p x

/-- The points of `p` or `q`. -/
def union (p q : PointSet α) : PointSet α := fun x => p x || q x

/-- The points of both `p` and `q`. -/
def inter (p q : PointSet α) : PointSet α := fun x => p x && q x

/-- The pairs with first component in `p` and second component in `q`. -/
def product (p : PointSet α) (q : PointSet β) : PointSet (α × β) := fun u => p u.1 && q u.2

/-! ### Finite sets and single points -/

/-- The finite set of the points `as`. -/
def ofList (c : Comparison α) (as : List α) : PointSet α := fun x => as.any fun a => c x a

/-- Everything but the point `a`. -/
def allBut (c : Comparison α) (a : α) : PointSet α := fun x => c.differ x a

/-- The points of `p` together with `a`. -/
def insert (c : Comparison α) (a : α) (p : PointSet α) : PointSet α := fun x => c x a || p x

/-- The points of `p` without `a`. -/
def erase (c : Comparison α) (p : PointSet α) (a : α) : PointSet α := fun x => c.differ x a && p x

/-- The set is **saturated** for a comparison: of values that are the same, all or none belong to
it. -/
def Saturated (p : PointSet α) (c : Comparison α) : Prop := ∀ ⦃x y⦄, c x y = true → p x = p y

@[simp] theorem complement_apply (p : PointSet α) (x : α) : p.complement x = !p x := rfl

@[simp] theorem union_apply (p q : PointSet α) (x : α) : p.union q x = (p x || q x) := rfl

@[simp] theorem inter_apply (p q : PointSet α) (x : α) : p.inter q x = (p x && q x) := rfl

@[simp] theorem product_apply (p : PointSet α) (q : PointSet β) (u : α × β) :
    p.product q u = (p u.1 && q u.2) := rfl

@[simp] theorem ofList_apply (c : Comparison α) (as : List α) (x : α) :
    ofList c as x = as.any fun a => c x a := rfl

@[simp] theorem allBut_apply (c : Comparison α) (a x : α) : allBut c a x = !c x a := rfl

@[simp] theorem insert_apply (c : Comparison α) (a : α) (p : PointSet α) (x : α) :
    insert c a p x = (c x a || p x) := rfl

@[simp] theorem erase_apply (c : Comparison α) (p : PointSet α) (a x : α) :
    erase c p a x = (!c x a && p x) := rfl

end PointSet

/-! ### Expressions -/

/-- Expressions for the sets of points that can be built over a comparison. -/
inductive PointExpr : {α : Type} → Comparison α → Type 1 where
  /-- A given membership test. -/
  | test {α : Type} {c : Comparison α} (p : PointSet α) : PointExpr c
  /-- Everything or nothing. -/
  | const {α : Type} {c : Comparison α} (b : Bool) : PointExpr c
  | ofList {α : Type} {c : Comparison α} (as : List α) : PointExpr c
  | allBut {α : Type} {c : Comparison α} (a : α) : PointExpr c
  | insert {α : Type} {c : Comparison α} (a : α) (p : PointExpr c) : PointExpr c
  | erase {α : Type} {c : Comparison α} (p : PointExpr c) (a : α) : PointExpr c
  | complement {α : Type} {c : Comparison α} (p : PointExpr c) : PointExpr c
  | union {α : Type} {c : Comparison α} (p q : PointExpr c) : PointExpr c
  | inter {α : Type} {c : Comparison α} (p q : PointExpr c) : PointExpr c
  /-- A set of first components times a set of second components. -/
  | product {α β : Type} {c : Comparison α} {d : Comparison β} (p : PointExpr c)
      (q : PointExpr d) : PointExpr (c.pair d)

/-- The set that an expression stands for. -/
def PointExpr.denote : {α : Type} → {c : Comparison α} → PointExpr c → PointSet α
  | _, _, test p => p
  | _, _, const b => fun _ => b
  | _, c, ofList as => .ofList c as
  | _, c, allBut a => .allBut c a
  | _, c, insert a p => .insert c a p.denote
  | _, c, erase p a => .erase c p.denote a
  | _, _, complement p => p.denote.complement
  | _, _, union p q => p.denote.union q.denote
  | _, _, inter p q => p.denote.inter q.denote
  | _, _, product p q => p.denote.product q.denote

/-- The membership tests given in an expression are saturated, each of them for the comparison over
which it stands. -/
def PointExpr.TestsSaturated : {α : Type} → {c : Comparison α} → PointExpr c → Prop
  | _, c, test p => p.Saturated c
  | _, _, const _ => True
  | _, _, ofList _ => True
  | _, _, allBut _ => True
  | _, _, insert _ p => p.TestsSaturated
  | _, _, erase p _ => p.TestsSaturated
  | _, _, complement p => p.TestsSaturated
  | _, _, union p q => p.TestsSaturated ∧ q.TestsSaturated
  | _, _, inter p q => p.TestsSaturated ∧ q.TestsSaturated
  | _, _, product p q => p.TestsSaturated ∧ q.TestsSaturated

/-! ### Edits -/

/-- One change of a point set. -/
inductive Edit (α : Type) where
  | add (a : α)
  | remove (a : α)

namespace Edit

variable {α : Type}

/-- The point that an edit is about. -/
def point : Edit α → α
  | add a => a
  | remove a => a

/-- Whether the edit adds its point. -/
def adds : Edit α → Bool
  | add _ => true
  | remove _ => false

/-- The set after an edit. -/
def apply (c : Comparison α) (p : PointSet α) : Edit α → PointSet α
  | add a => .insert c a p
  | remove a => .erase c p a

/-- The set after a list of edits. -/
def applyAll (c : Comparison α) (p : PointSet α) (edits : List (Edit α)) : PointSet α :=
  edits.foldl (Edit.apply c) p

/-- The last edit whose point `x` is the same as, if there is any. -/
def lastAbout? (c : Comparison α) (x : α) (edits : List (Edit α)) : Option (Edit α) :=
  (edits.filter fun e => c x e.point).getLast?

end Edit

/-! ### Named points -/

namespace PointExpr

/-- The expression names points and combines sets of points, and does nothing else. -/
def Pointwise : {α : Type} → {c : Comparison α} → PointExpr c → Prop
  | _, _, test _ => False
  | _, _, const _ => True
  | _, _, ofList _ => True
  | _, _, allBut _ => True
  | _, _, insert _ p => p.Pointwise
  | _, _, erase p _ => p.Pointwise
  | _, _, complement p => p.Pointwise
  | _, _, union p q => p.Pointwise ∧ q.Pointwise
  | _, _, inter p q => p.Pointwise ∧ q.Pointwise
  | _, _, product _ _ => False

/-- The points that an expression names over its own comparison. -/
def mentioned : {α : Type} → {c : Comparison α} → PointExpr c → List α
  | _, _, test _ => []
  | _, _, const _ => []
  | _, _, ofList as => as
  | _, _, allBut a => [a]
  | _, _, insert a p => a :: p.mentioned
  | _, _, erase p a => a :: p.mentioned
  | _, _, complement p => p.mentioned
  | _, _, union p q => p.mentioned ++ q.mentioned
  | _, _, inter p q => p.mentioned ++ q.mentioned
  | _, _, product _ _ => []

/-- Whether a pointwise expression has in its set the values that are the same as no point it
names. -/
def elsewhere : {α : Type} → {c : Comparison α} → PointExpr c → Bool
  | _, _, test _ => false
  | _, _, const b => b
  | _, _, ofList _ => false
  | _, _, allBut _ => true
  | _, _, insert _ p => p.elsewhere
  | _, _, erase p _ => p.elsewhere
  | _, _, complement p => !p.elsewhere
  | _, _, union p q => p.elsewhere || q.elsewhere
  | _, _, inter p q => p.elsewhere && q.elsewhere
  | _, _, product _ _ => false

/-- The points that an expression names and answers otherwise than elsewhere. -/
def exceptions {α : Type} {c : Comparison α} (p : PointExpr c) : List α :=
  p.mentioned.filter fun a => p.denote a != p.elsewhere

end PointExpr

end Sameness
