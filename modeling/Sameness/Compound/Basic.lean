import Sameness.Basic

/-!
# Products and sums

The comparison of a product is the comparison of its components, taken in order and joined by
conjunction; each component keeps its own comparison and its own order of arguments. A `Tuple` of
length `n` has one field for each position `k : Fin n`, of a type that may depend on the position.
The empty tuple is another one-element type.

The alternatives of a sum are told apart by position and never by type, so a sum whose sides have
the same type keeps them distinct. A `Variant` over `n` alternative types holds a value at one
position `k : Fin n`, or is **vacant**, having lost its value. Two vacant variants are the same and
a vacant one differs from every other.

The same products and sums can be held in other forms: a tuple as pairs nested to the right and
ending in the one-element type, a variant as binary sums nested to the right, a pair as a tuple and
an option as a binary sum. The maps into the other forms keep all components in place. Variants can
moreover be compared by a search for the position that is filled.
-/

namespace Sameness

variable {α β : Type}

/-! ### Pairs -/

namespace Comparison

/-- Pairs are the same when both components are. -/
def pair (c : Comparison α) (d : Comparison β) : Comparison (α × β) :=
  fun u v => c u.1 v.1 && d u.2 v.2

/-- The first components are the same: what `pair` says of them. -/
def first (c : Comparison α) : Comparison (α × β) := fun u v => c u.1 v.1

/-- The second components are the same: what `pair` says of them. -/
def second (d : Comparison β) : Comparison (α × β) := fun u v => d u.2 v.2

theorem pair_eq_true_iff {c : Comparison α} {d : Comparison β} {u v : α × β} :
    c.pair d u v = true ↔ c u.1 v.1 = true ∧ d u.2 v.2 = true := Bool.and_eq_true_iff

end Comparison

/-! ### Tuples -/

/-- A value of type `F k` for each position `k`. -/
@[ext] structure Tuple {n : Nat} (F : Fin n → Type) where
  get : (k : Fin n) → F k

namespace Tuple

/-- The tuple of the fields that `field` computes, run in the order of the positions; the first
failure is the failure of the whole. -/
def collect {m : Type → Type} [Monad m] :
    {n : Nat} → {F : Fin n → Type} → ((k : Fin n) → m (F k)) → m (Tuple F)
  | 0, _, _ => pure ⟨fun k => k.elim0⟩
  | _ + 1, _, field => do
    let x ← field 0
    let rest ← collect fun k => field k.succ
    pure ⟨Fin.cases x rest.get⟩

/-- The fields, each written by `write`, in the order of the positions. -/
def toList {n : Nat} {F : Fin n → Type} (write : (k : Fin n) → F k → β) (t : Tuple F) : List β :=
  List.ofFn fun k => write k (t.get k)

end Tuple

/-- Tuples are the same when the fields at each position are. -/
def Comparison.tuple {n : Nat} {F : Fin n → Type} (c : (k : Fin n) → Comparison (F k)) :
    Comparison (Tuple F) :=
  fun u v => (List.finRange n).all fun k => c k (u.get k) (v.get k)

theorem Comparison.tuple_eq_true_iff {n : Nat} {F : Fin n → Type}
    {c : (k : Fin n) → Comparison (F k)} {u v : Tuple F} :
    Comparison.tuple c u v = true ↔ ∀ k, c k (u.get k) (v.get k) = true := by
  simp [Comparison.tuple]

/-! ### Options -/

/-- Options are the same when both are empty, or both hold values that are the same. -/
def Comparison.option (c : Comparison α) : Comparison (Option α)
  | none, none => true
  | some x, some y => c x y
  | _, _ => false

@[simp] theorem Comparison.option_none_none (c : Comparison α) : c.option none none = true := rfl

@[simp] theorem Comparison.option_some_some (c : Comparison α) (x y : α) :
    c.option (some x) (some y) = c x y := rfl

@[simp] theorem Comparison.option_none_some (c : Comparison α) (y : α) :
    c.option none (some y) = false := rfl

@[simp] theorem Comparison.option_some_none (c : Comparison α) (x : α) :
    c.option (some x) none = false := rfl

/-! ### Variants -/

/-- A value at one of `n` positions, or none at all. -/
inductive Variant {n : Nat} (F : Fin n → Type) where
  /-- No alternative is present. -/
  | vacant
  /-- The value `x` at position `k`. -/
  | chosen (k : Fin n) (x : F k)

namespace Variant

variable {n : Nat} {F : Fin n → Type}

/-- The position of the value that is present. -/
def position? : Variant F → Option (Fin n)
  | vacant => none
  | chosen k _ => some k

/-- The value at position `k`, when that is the one present. -/
def get? (k : Fin n) : Variant F → Option (F k)
  | vacant => none
  | chosen j x => if h : j = k then some (h ▸ x) else none

@[simp] theorem get?_vacant (k : Fin n) : (vacant : Variant F).get? k = none := rfl

@[simp] theorem get?_chosen_self (k : Fin n) (x : F k) :
    (chosen k x : Variant F).get? k = some x := by
  simp [get?]

theorem get?_chosen_of_ne {j k : Fin n} (h : j ≠ k) (x : F j) :
    (chosen j x : Variant F).get? k = none := dif_neg h

/-- The variant with its value mapped, at the same position. -/
def map {G : Fin n → Type} (f : (k : Fin n) → F k → G k) : Variant F → Variant G
  | vacant => vacant
  | chosen k x => chosen k (f k x)

@[simp] theorem map_vacant {G : Fin n → Type} (f : (k : Fin n) → F k → G k) :
    (vacant : Variant F).map f = vacant := rfl

@[simp] theorem map_chosen {G : Fin n → Type} (f : (k : Fin n) → F k → G k) (k : Fin n) (x : F k) :
    (chosen k x).map f = chosen k (f k x) := rfl

end Variant

/-- Variants are the same when they are at the same position, with values that are the same there,
or when both are vacant. -/
def Comparison.variant {n : Nat} {F : Fin n → Type} (c : (k : Fin n) → Comparison (F k)) :
    Comparison (Variant F)
  | .vacant, .vacant => true
  | .chosen j x, .chosen k y => if h : k = j then c j x (h ▸ y) else false
  | _, _ => false

namespace Comparison

variable {n : Nat} {F : Fin n → Type} {c : (k : Fin n) → Comparison (F k)}

@[simp] theorem variant_vacant_vacant : variant c .vacant .vacant = true := rfl

@[simp] theorem variant_vacant_chosen (k : Fin n) (y : F k) :
    variant c .vacant (.chosen k y) = false := rfl

@[simp] theorem variant_chosen_vacant (j : Fin n) (x : F j) :
    variant c (.chosen j x) .vacant = false := rfl

@[simp] theorem variant_chosen_self (k : Fin n) (x y : F k) :
    variant c (.chosen k x) (.chosen k y) = c k x y := by
  simp [variant]

theorem variant_chosen_of_ne {j k : Fin n} (h : j ≠ k) (x : F j) (y : F k) :
    variant c (.chosen j x) (.chosen k y) = false := by
  simp [variant, Ne.symm h]

end Comparison

/-! ### Two alternatives -/

/-- The two alternative types of a binary sum. -/
def sides (α β : Type) : Fin 2 → Type
  | 0 => α
  | 1 => β

/-- A binary sum: a variant with a left and a right alternative. -/
abbrev Either (α β : Type) := Variant (sides α β)

/-- The left alternative. -/
def Either.left (x : α) : Either α β := .chosen 0 x

/-- The right alternative. -/
def Either.right (y : β) : Either α β := .chosen 1 y

/-! ### Nested pairs -/

/-- A pair as a tuple of two fields. -/
def Tuple.ofPair {α β : Type} (u : α × β) : Tuple (sides α β) :=
  ⟨fun
    | 0 => u.1
    | 1 => u.2⟩

/-- The fields of a tuple as pairs nested to the right. -/
def NestedPair : {n : Nat} → (Fin n → Type) → Type
  | 0, _ => Unit
  | _ + 1, F => F 0 × NestedPair fun k => F k.succ

/-- A tuple as nested pairs. -/
def Tuple.nest : {n : Nat} → {F : Fin n → Type} → Tuple F → NestedPair F
  | 0, _, _ => ()
  | _ + 1, _, t => (t.get 0, nest ⟨fun k => t.get k.succ⟩)

/-- The comparison of nested pairs. -/
def Comparison.nestedPair :
    {n : Nat} → {F : Fin n → Type} → ((k : Fin n) → Comparison (F k)) → Comparison (NestedPair F)
  | 0, _, _ => .unit
  | _ + 1, _, c => .pair (c 0) (nestedPair fun k => c k.succ)

/-! ### Nested binary sums -/

/-- One or more alternatives as binary sums nested to the right. -/
def NestedSum : {n : Nat} → (Fin (n + 1) → Type) → Type
  | 0, F => F 0
  | _ + 1, F => Either (F 0) (NestedSum fun k => F k.succ)

/-- The value `x` at position `k` as a nested sum. -/
def NestedSum.chosen : {n : Nat} → {F : Fin (n + 1) → Type} → (k : Fin (n + 1)) → F k → NestedSum F
  | 0, _, ⟨0, _⟩, x => x
  | _ + 1, _, ⟨0, _⟩, x => Either.left x
  | _ + 1, _, ⟨k + 1, h⟩, x => Either.right (chosen ⟨k, Nat.lt_of_succ_lt_succ h⟩ x)

theorem NestedSum.chosen_zero {n : Nat} {F : Fin (n + 2) → Type} (x : F 0) :
    (NestedSum.chosen 0 x : NestedSum F) = Either.left x := rfl

theorem NestedSum.chosen_succ {n : Nat} {F : Fin (n + 2) → Type} (k : Fin (n + 1)) (x : F k.succ) :
    (NestedSum.chosen k.succ x : NestedSum F) =
      Either.right (NestedSum.chosen (F := fun k => F k.succ) k x) := rfl

/-- The comparisons of the two sides of a binary sum. -/
def Comparison.sides {α β : Type} (c : Comparison α) (d : Comparison β) :
    (k : Fin 2) → Comparison (sides α β k)
  | 0 => c
  | 1 => d

/-- The comparison of binary sums. -/
def Comparison.either {α β : Type} (c : Comparison α) (d : Comparison β) :
    Comparison (Either α β) := .variant (Comparison.sides c d)

namespace Comparison

variable {α β : Type} (c : Comparison α) (d : Comparison β)

@[simp] theorem either_left_left (x x' : α) : c.either d (.left x) (.left x') = c x x' := rfl

@[simp] theorem either_right_right (y y' : β) : c.either d (.right y) (.right y') = d y y' := rfl

@[simp] theorem either_left_right (x : α) (y : β) : c.either d (.left x) (.right y) = false := rfl

@[simp] theorem either_right_left (x : α) (y : β) : c.either d (.right y) (.left x) = false := rfl

end Comparison

/-- The comparison of nested sums. -/
def Comparison.nestedSum : {n : Nat} → {F : Fin (n + 1) → Type} →
    ((k : Fin (n + 1)) → Comparison (F k)) → Comparison (NestedSum F)
  | 0, _, c => c 0
  | _ + 1, _, c => .either (c 0) (nestedSum fun k => c k.succ)

/-- An option as a variant: nothing at position 0, a value at position 1. -/
def Either.ofOption {α : Type} : Option α → Either Unit α
  | none => .left ()
  | some x => .right x

/-! ### Search for the filled position -/

/-- What a search through the positions finds out about two variants: the first position at which
both are filled decides. -/
def Variant.search {n : Nat} {F : Fin n → Type} (c : (k : Fin n) → Comparison (F k))
    (u v : Variant F) : Option Bool :=
  (List.finRange n).findSome? fun k => do
    let x ← u.get? k
    let y ← v.get? k
    return c k x y

/-- The comparison of variants by a search. Different positions tell two variants apart, and vacant
ones are the same. With the same position on both sides the search is on, and `false` is the answer
as long as nothing is found. -/
def Comparison.variantBySearch {n : Nat} {F : Fin n → Type} (c : (k : Fin n) → Comparison (F k)) :
    Comparison (Variant F) := fun u v =>
  if u.position? ≠ v.position? then false
  else if u.position? = none then true
  else (u.search c v).getD false

end Sameness
