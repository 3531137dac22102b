import Sameness.Compound.Basic

/-!
# Trees

A recursive sum whose branches are pairs and options of trees. The comparison of trees looks at one
layer at a time, as a variant over six alternatives, and calls itself on the trees found in it;
`Tree.compareWithin` does so to a given depth, and `Tree.compare` to the depth of its left argument,
which is deep enough for any right argument. Texts are of any type with decidable identity, which is
how they are compared: a string of characters is one, and so is a string of bytes, whether or not
the bytes encode characters.

Only the shape of a tree can say that the calls come to an end. A **trial** is a comparison that may
be broken off: it has no verdict when the calls that it needs are more than it is allowed. Pairs,
options and variants are tried the way they are compared, in the same order and with the same short
cuts, and what they need and do not get breaks them off. `Trial.verdict` forgets the difference
between a trial that is broken off and one that tells its arguments apart. Up to that, composite
trials are composite comparisons (`Trial.verdict_pair` and its companions).
-/

namespace Sameness

/-! ### Trials -/

/-- A comparison that may be broken off without a verdict. -/
abbrev Trial (α : Type) := α → α → Option Bool

namespace Trial

variable {α β : Type} {n : Nat} {F : Fin n → Type}

/-- A comparison as a trial that is never broken off. -/
def ofComparison (c : Comparison α) : Trial α := fun x y => some (c x y)

/-- Pairs: the second components are tried when the first ones are the same. -/
def pair (p : Trial α) (q : Trial β) : Trial (α × β) := fun u v => do
  if ← p u.1 v.1 then q u.2 v.2 else return false

/-- Options: values are tried when both are present. -/
def option (p : Trial α) : Trial (Option α)
  | some x, some y => p x y
  | none, none => some true
  | _, _ => some false

/-- Variants: values are tried when they are at the same position. -/
def variant (p : (k : Fin n) → Trial (F k)) : Trial (Variant F)
  | .chosen j x, .chosen k y => if h : k = j then p j x (h ▸ y) else some false
  | .vacant, .vacant => some true
  | _, _ => some false

/-- The trial of images under a map. -/
def along (p : Trial β) (f : α → β) : Trial α := fun x y => p (f x) (f y)

/-- The comparison that a trial comes to, when a trial that is broken off counts as one that tells
its arguments apart. -/
def verdict (p : Trial α) : Comparison α := fun x y => (p x y).getD false

theorem verdict_ofComparison (c : Comparison α) : (ofComparison c).verdict = c := rfl

theorem variant_chosen_self (p : (k : Fin n) → Trial (F k)) (k : Fin n) (x y : F k) :
    variant p (.chosen k x) (.chosen k y) = p k x y := by
  simp [variant]

theorem variant_chosen_of_ne (p : (k : Fin n) → Trial (F k)) {j k : Fin n} (h : j ≠ k) (x : F j)
    (y : F k) : variant p (.chosen j x) (.chosen k y) = some false := by
  simp [variant, Ne.symm h]

/-! ### Composite trials are composite comparisons -/

theorem verdict_pair (p : Trial α) (q : Trial β) :
    (p.pair q).verdict = p.verdict.pair q.verdict := by
  funext u v
  simp only [verdict, pair, Comparison.pair]
  rcases p u.1 v.1 with _ | _ | _ <;> rfl

theorem verdict_option (p : Trial α) : p.option.verdict = p.verdict.option := by
  funext x y
  cases x <;> cases y <;> rfl

theorem verdict_variant (p : (k : Fin n) → Trial (F k)) :
    (variant p).verdict = Comparison.variant fun k => (p k).verdict := by
  funext u v
  rcases u with _ | ⟨j, x⟩ <;> rcases v with _ | ⟨k, y⟩
  · rfl
  · rfl
  · rfl
  · by_cases h : j = k
    · subst h
      simp only [verdict, variant_chosen_self, Comparison.variant_chosen_self]
    · rw [verdict, variant_chosen_of_ne p h, Comparison.variant_chosen_of_ne h]
      rfl

end Trial

/-! ### Trees -/

/-- A recursive value over texts of type `ς`: a leaf of one of four kinds, a pair of trees, or an
optional tree. -/
inductive Tree (ς : Type) where
  | unit
  | bool (b : Bool)
  | int (n : Int64)
  | text (s : ς)
  | pair (l r : Tree ς)
  | maybe (t : Option (Tree ς))

namespace Tree

variable {ς τ : Type}

/-- The number of layers. -/
def depth : Tree ς → Nat
  | pair l r => max l.depth r.depth + 1
  | maybe (some t) => t.depth + 1
  | _ => 1

/-- What one layer of a tree may hold at each of its six positions, with `τ` for the trees
below. -/
def Part (ς τ : Type) : Fin 6 → Type
  | 0 => Unit
  | 1 => Bool
  | 2 => Int64
  | 3 => ς
  | 4 => τ × τ
  | 5 => Option τ

/-- The outermost layer of a tree. -/
def layer : Tree ς → Variant (Part ς (Tree ς))
  | unit => .chosen 0 ()
  | bool b => .chosen 1 b
  | int n => .chosen 2 n
  | text s => .chosen 3 s
  | pair l r => .chosen 4 (l, r)
  | maybe t => .chosen 5 t

/-- The tree with a given outermost layer. A vacant variant is not a layer. -/
def ofLayer? : Variant (Part ς (Tree ς)) → Option (Tree ς)
  | .vacant => none
  | .chosen 0 _ => some unit
  | .chosen 1 b => some (bool b)
  | .chosen 2 n => some (int n)
  | .chosen 3 s => some (text s)
  | .chosen 4 u => some (pair u.1 u.2)
  | .chosen 5 t => some (maybe t)

@[simp] theorem ofLayer?_layer (t : Tree ς) : ofLayer? t.layer = some t := by
  cases t <;> rfl

/-- The comparison of what a layer holds, from one for the trees below. -/
def comparePart [DecidableEq ς] (c : Comparison τ) : (k : Fin 6) → Comparison (Part ς τ k)
  | 0 => Comparison.unit
  | 1 => Comparison.bool
  | 2 => (Comparison.identity : Comparison Int64)
  | 3 => (Comparison.identity : Comparison ς)
  | 4 => c.pair c
  | 5 => c.option

/-- The comparison of the first `n` layers, which finds trees that differ only below them
different. -/
def compareWithin [DecidableEq ς] : Nat → Comparison (Tree ς)
  | 0 => fun _ _ => false
  | n + 1 => (Comparison.variant (comparePart (compareWithin n))).along layer

/-- Trees are the same when their layers are, all the way down. -/
def compare [DecidableEq ς] : Comparison (Tree ς) := fun t u => compareWithin t.depth t u

/-! ### Trials of trees -/

/-- The trees that a layer holds, which are the ones that its comparison calls itself on. -/
def beneath : Tree ς → List (Tree ς)
  | pair l r => [l, r]
  | maybe (some t) => [t]
  | _ => []

/-- The trial of what a layer holds, from one for the trees below. -/
def tryPart [DecidableEq ς] (p : Trial τ) : (k : Fin 6) → Trial (Part ς τ k)
  | 0 => .ofComparison Comparison.unit
  | 1 => .ofComparison Comparison.bool
  | 2 => .ofComparison (Comparison.identity : Comparison Int64)
  | 3 => .ofComparison (Comparison.identity : Comparison ς)
  | 4 => p.pair p
  | 5 => p.option

/-- The trial of trees with at most `n` calls inside one another, broken off at the next one. -/
def tryWithin [DecidableEq ς] : Nat → Trial (Tree ς)
  | 0 => fun _ _ => none
  | n + 1 => (Trial.variant (tryPart (tryWithin n))).along layer

end Tree

end Sameness
