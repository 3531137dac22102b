import Sameness.Basic
import Sameness.Compound.Basic

/-!
# Laws on samples

That a comparison is right cannot be read off its type. The checkers here state the laws as
properties of a finite sample `xs`, and each has one lemma that says what its acceptance means.

* **Equivalence**: reflexivity, symmetry, transitivity, and agreement with a notion of identity.
  These take a relation whose results are read as truth values, so that two results which are both
  true count as the same whatever they are. A `Law` is one of the four, by name.
* **Injectivity and cancellation.** What makes the comparison along a map right is that the map is
  injective, and a left inverse of the map is a reason for that. Injectivity compares in the domain
  and in the codomain; cancellation compares a value with what comes back from its image, through a
  total inverse, an inverse that may have no value there, or one that runs in a monad and may fail.
  `Sample.Respects` is the converse of injectivity.
* **Agreement.** Two functions agree on a sample when their results are the same there, point by
  point; two relations agree when they give the same verdicts on all pairs. The **graph** of a
  function is a relation between arguments and results, and a point is **fixed through** a
  projection `k` by `f` when `f` does not change what `k` sees of it.
-/

namespace Sameness

namespace Sample

/-! ### Equivalence -/

section Equivalence

open Truth (isTrue)

variable {α τ υ : Type} [Truth τ] [Truth υ] {r : α → α → τ} {xs : List α}

/-- Every value of the sample is related to itself. -/
def reflexive (r : α → α → τ) (xs : List α) : Bool := xs.all fun x => isTrue (r x x)

/-- The relation gives the same verdict in both orders. -/
def symmetric (r : α → α → τ) (xs : List α) : Bool :=
  xs.all fun x => xs.all fun y => isTrue (r x y) == isTrue (r y x)

/-- Two related steps make a related pair. -/
def transitive (r : α → α → τ) (xs : List α) : Bool :=
  xs.all fun x => xs.all fun y => xs.all fun z =>
    !(isTrue (r x y) && isTrue (r y z) && !isTrue (r x z))

/-- The relation agrees with `same`, the notion of identity of the sample. -/
def decides (r : α → α → τ) (xs : List α) (same : α → α → υ) : Bool :=
  xs.all fun x => xs.all fun y => isTrue (r x y) == isTrue (same x y)

/-- All laws of an equivalence for a comparison, and that `differ` is its negation. -/
def lawful (c : Comparison α) (xs : List α) : Bool :=
  (xs.all fun x => xs.all fun y => c.differ x y != c x y) &&
    (reflexive c xs && symmetric c xs && transitive c xs)

theorem reflexive_eq_true_iff :
    reflexive r xs = true ↔ ∀ x ∈ xs, isTrue (r x x) = true := by
  simp [reflexive]

theorem symmetric_eq_true_iff :
    symmetric r xs = true ↔ ∀ x ∈ xs, ∀ y ∈ xs, isTrue (r x y) = isTrue (r y x) := by
  simp [symmetric]

theorem transitive_eq_true_iff :
    transitive r xs = true ↔
      ∀ x ∈ xs, ∀ y ∈ xs, ∀ z ∈ xs,
        isTrue (r x y) = true → isTrue (r y z) = true → isTrue (r x z) = true := by
  simp only [transitive, List.all_eq_true]
  refine forall₂_congr fun x _ => forall₂_congr fun y _ => forall₂_congr fun z _ => ?_
  cases isTrue (r x y) <;> cases isTrue (r y z) <;> cases isTrue (r x z) <;> simp

theorem decides_eq_true_iff {same : α → α → υ} :
    decides r xs same = true ↔ ∀ x ∈ xs, ∀ y ∈ xs, isTrue (r x y) = isTrue (same x y) := by
  simp [decides]

/-- A law that a comparison may obey on a sample. -/
inductive Law where
  | reflexive
  | symmetric
  | transitive
  | decides

/-- Whether the comparison `c` obeys a law on the sample. The notion of identity `same` matters to
the last law only. -/
def Law.holds (c same : Comparison α) (xs : List α) : Law → Bool
  | reflexive => Sample.reflexive c xs
  | symmetric => Sample.symmetric c xs
  | transitive => Sample.transitive c xs
  | decides => Sample.decides c xs same

end Equivalence

/-! ### Injectivity and cancellation -/

section Cancellation

variable {α β : Type} {c : Comparison α} {d : Comparison β} {f : α → β} {xs : List α}

/-- Values whose images are the same are the same. -/
def injective (c : Comparison α) (d : Comparison β) (f : α → β) (xs : List α) : Bool :=
  xs.all fun x => xs.all fun y => !(d (f x) (f y) && !c x y)

/-- Values that are the same have images that are the same: the map **respects** the two
comparisons on the sample. -/
def Respects (c : Comparison α) (d : Comparison β) (f : α → β) (xs : List α) : Prop :=
  ∀ x ∈ xs, ∀ y ∈ xs, c x y = true → d (f x) (f y) = true

/-- What comes back from the image of a value is that value. -/
def cancels (c : Comparison α) (f : α → β) (back : β → α) (xs : List α) : Bool :=
  xs.all fun x => c (back (f x)) x

/-- A value comes back from the image of a value, and it is that value. -/
def cancelsPartly (c : Comparison α) (f : α → β) (back? : β → Option α) (xs : List α) : Bool :=
  xs.all fun x => c.option (back? (f x)) (some x)

/-- What comes back from the image of a value is that value, for an inverse with effects. The
values of the sample are taken in order and the first that fails to cancel ends the check. -/
def cancelsM {m : Type → Type} [Monad m] (c : Comparison α) (f : α → β) (back : β → m α)
    (xs : List α) : m Bool :=
  xs.allM fun x => do return c (← back (f x)) x

theorem injective_eq_true_iff :
    injective c d f xs = true ↔
      ∀ x ∈ xs, ∀ y ∈ xs, d (f x) (f y) = true → c x y = true := by
  simp only [injective, List.all_eq_true]
  refine forall₂_congr fun x _ => forall₂_congr fun y _ => ?_
  cases d (f x) (f y) <;> cases c x y <;> simp

theorem cancels_eq_true_iff {back : β → α} :
    cancels c f back xs = true ↔ ∀ x ∈ xs, c (back (f x)) x = true := by
  simp [cancels]

theorem cancelsPartly_eq_true_iff {back? : β → Option α} :
    cancelsPartly c f back? xs = true ↔
      ∀ x ∈ xs, c.option (back? (f x)) (some x) = true := by
  simp [cancelsPartly]

end Cancellation

end Sample

/-! ### Agreement -/

section Agreement

variable {α β τ υ : Type}

/-- The graph of `f`: `x` is related to `y` when `f x` is the same as `y`. -/
def Comparison.graph (d : Comparison β) (f : α → β) : α → β → Bool := fun x y => d (f x) y

/-- The points whose projection by `k` is unchanged by `f`. -/
def Comparison.fixedThrough (d : Comparison β) (f : α → α) (k : α → β) : α → Bool :=
  fun x => d (k (f x)) (k x)

namespace Sample

open Truth (isTrue)

/-- Two functions have the same results on the sample. -/
def functionsAgree (d : Comparison β) (f g : α → β) (xs : List α) : Bool :=
  xs.all fun x => d (f x) (g x)

/-- Two relations give the same verdicts on the pairs of the sample. -/
def relationsAgree [Truth τ] [Truth υ] (r : α → α → τ) (s : α → α → υ) (xs : List α) : Bool :=
  xs.all fun x => xs.all fun y => isTrue (r x y) == isTrue (s x y)

theorem functionsAgree_eq_true_iff {d : Comparison β} {f g : α → β} {xs : List α} :
    functionsAgree d f g xs = true ↔ ∀ x ∈ xs, d (f x) (g x) = true := by
  simp [functionsAgree]

theorem relationsAgree_eq_true_iff [Truth τ] [Truth υ] {r : α → α → τ} {s : α → α → υ}
    {xs : List α} :
    relationsAgree r s xs = true ↔
      ∀ x ∈ xs, ∀ y ∈ xs, isTrue (r x y) = isTrue (s x y) := by
  simp [relationsAgree]

end Sample

end Agreement

end Sameness
