import Sameness.Compound.Basic
import Sameness.Compound.Labelled
import Sameness.Refinement.Basic

/-!
# Shapes

A **shape** on a type says how its comparison is put together: from arbitrary comparisons at the
leaves, through pairs, tuples, variants, options, labelled values and refinements that inherit the
comparison of their base, nested to any depth. `Shape.compare` is the comparison it stands for.

* A shape is **closed** (`Shape.Closed`) when its leaves are the one-element type, the truth values,
  and types compared by identity, such as machine integers, characters, enumerations and text, and
  when its refinements are ready-made ones: the types that the library builds by itself, with no
  comparison brought in from outside.
* A composite value has **slots** (`Shape.composition`): the two sides of a pair, the positions of a
  tuple, of a variant or of a labelled value, the payload of an option, and the base value of a
  refined value. A slot may be empty. A comparison of what the slots hold lifts to a comparison of
  whole values, and what it is meant to be can be said without lifting: two values are the same
  **componentwise** when each slot is empty in both, or filled in both with components that are the
  same (`Composition.Componentwise`).
* **Erasure** (`Shape.erase`) replaces every refined value inside a value, at every depth and
  through every layer, by the base value it projects to. `Shape.Erased` is the type that is left,
  and `Shape.erased` its shape.
* The comparisons at the **leaves** can be changed and nothing else: by exchanging the arguments of
  all of them (`Shape.swapLeaves`), or by replacing each by a coarser one (`Shape.Finer`).
-/

namespace Sameness

/-- How the comparison of a type is built. -/
inductive Shape : Type → Type 1 where
  /-- A type with a comparison of its own. -/
  | leaf {α : Type} (c : Comparison α) : Shape α
  /-- A pair, compared by components. -/
  | pair {α β : Type} (s : Shape α) (t : Shape β) : Shape (α × β)
  /-- A tuple, compared by fields. -/
  | tuple {n : Nat} {F : Fin n → Type} (s : (k : Fin n) → Shape (F k)) : Shape (Tuple F)
  /-- A variant, compared by position and then by value. -/
  | variant {n : Nat} {F : Fin n → Type} (s : (k : Fin n) → Shape (F k)) : Shape (Variant F)
  /-- An option. -/
  | option {α : Type} (s : Shape α) : Shape (Option α)
  /-- A labelled value, compared by label and then by payload. -/
  | labelled {n : Nat} {I : Type} [DecidableEq I] {L : Labels n I} {F : Fin n → Type}
      (s : (k : Fin n) → Shape (F k)) : Shape (Labelled L F)
  /-- A refinement, compared by projection. -/
  | inherited {σ β : Type} (R : Refinement σ β) (s : Shape β) : Shape σ

/-- The comparison that a shape stands for. -/
def Shape.compare : {α : Type} → Shape α → Comparison α
  | _, leaf c => c
  | _, pair s t => .pair s.compare t.compare
  | _, tuple s => .tuple fun k => (s k).compare
  | _, variant s => .variant fun k => (s k).compare
  | _, option s => .option s.compare
  | _, labelled s => .labelled fun k => (s k).compare
  | _, inherited R s => R.inherit s.compare

/-! ### Closed shapes -/

/-- The shapes built from elementary types by the constructions of the library alone. -/
inductive Shape.Closed : {α : Type} → Shape α → Prop where
  | unit : Closed (.leaf Comparison.unit)
  | bool : Closed (.leaf Comparison.bool)
  | identity {α : Type} [DecidableEq α] : Closed (.leaf (Comparison.identity : Comparison α))
  | pair {α β : Type} {s : Shape α} {t : Shape β} : Closed s → Closed t → Closed (.pair s t)
  | tuple {n : Nat} {F : Fin n → Type} {s : (k : Fin n) → Shape (F k)} :
      (∀ k, Closed (s k)) → Closed (.tuple s)
  | variant {n : Nat} {F : Fin n → Type} {s : (k : Fin n) → Shape (F k)} :
      (∀ k, Closed (s k)) → Closed (.variant s)
  | option {α : Type} {s : Shape α} : Closed s → Closed (.option s)
  | labelled {n : Nat} {I : Type} [DecidableEq I] {L : Labels n I} {F : Fin n → Type}
      {s : (k : Fin n) → Shape (F k)} : (∀ k, Closed (s k)) → Closed (.labelled (L := L) s)
  | layer {σ β : Type} (l : Layer β σ) {s : Shape β} :
      Closed s → Closed (.inherited l.refinement s)

/-! ### Components -/

/-- How the values of a type are composed of components. -/
structure Composition (α : Type) where
  /-- The places for components. -/
  Slot : Type
  /-- The type of what a slot holds. -/
  Component : Slot → Type
  /-- The shape of what a slot holds. -/
  shape : (k : Slot) → Shape (Component k)
  /-- What a slot of a value holds, unless it is empty. -/
  occupant? : (k : Slot) → α → Option (Component k)
  /-- The comparison of values from comparisons of what the slots hold. -/
  lift : ((k : Slot) → Comparison (Component k)) → Comparison α

namespace Composition

variable {α : Type} (C : Composition α)

/-- The components that occur in a slot among the values of a sample. -/
def occupants (k : C.Slot) (xs : List α) : List (C.Component k) := xs.filterMap (C.occupant? k)

/-- The comparison `c` of whole values is the componentwise one over the comparisons `d` of what the
slots hold. -/
def Componentwise (d : (k : C.Slot) → Comparison (C.Component k)) (c : Comparison α) : Prop :=
  ∀ x y, c x y = true ↔
    ∀ k, Option.Rel (fun a b => d k a b = true) (C.occupant? k x) (C.occupant? k y)

end Composition

/-- The outermost composition of a shape. A leaf has one slot, which holds the value itself. -/
def Shape.composition : {α : Type} → Shape α → Composition α
  | α, leaf c => {
      Slot := Unit
      Component := fun _ => α
      shape := fun _ => .leaf c
      occupant? := fun _ x => some x
      lift := fun d => d () }
  | _, @pair α β s t => {
      Slot := Bool
      Component := fun k => if k then β else α
      shape := fun | false => s | true => t
      occupant? := fun | false, u => some u.1 | true, u => some u.2
      lift := fun d => Comparison.pair (d false) (d true) }
  | _, @tuple n F s => {
      Slot := Fin n
      Component := F
      shape := s
      occupant? := fun k t => some (t.get k)
      lift := .tuple }
  | _, @variant n F s => {
      Slot := Fin n
      Component := F
      shape := s
      occupant? := Variant.get?
      lift := .variant }
  | _, @option α s => {
      Slot := Unit
      Component := fun _ => α
      shape := fun _ => s
      occupant? := fun _ x => x
      lift := fun d => Comparison.option (d ()) }
  | _, @labelled n _ _ _ F s => {
      Slot := Fin n
      Component := F
      shape := s
      occupant? := fun k u => u.storage.get? k
      lift := .labelled }
  | _, @inherited _ β R s => {
      Slot := Unit
      Component := fun _ => β
      shape := fun _ => s
      occupant? := fun _ u => some (R.toBase u)
      lift := fun d => R.inherit (d ()) }

/-- The comparison of a shape is lifted from the comparisons of its components. -/
theorem Shape.lift_composition {α : Type} (s : Shape α) :
    (s.composition.lift fun k => (s.composition.shape k).compare) = s.compare := by
  cases s <;> rfl

/-! ### Erasure of refinements -/

namespace Shape

/-- The type of a shape with all refinements replaced by their bases. -/
def Erased : {α : Type} → Shape α → Type
  | α, leaf _ => α
  | _, pair s t => s.Erased × t.Erased
  | _, tuple s => Tuple fun k => (s k).Erased
  | _, variant s => Variant fun k => (s k).Erased
  | _, option s => Option s.Erased
  | _, @labelled _ _ _ L _ s => Labelled L fun k => (s k).Erased
  | _, inherited _ s => s.Erased

/-- The shape without its refinements, over the same leaves. -/
def erased : {α : Type} → (s : Shape α) → Shape s.Erased
  | _, leaf c => .leaf c
  | _, pair s t => .pair s.erased t.erased
  | _, tuple s => .tuple fun k => (s k).erased
  | _, variant s => .variant fun k => (s k).erased
  | _, option s => .option s.erased
  | _, labelled s => .labelled fun k => (s k).erased
  | _, inherited _ s => s.erased

/-- The value with every refined value inside it projected to its base. -/
def erase : {α : Type} → (s : Shape α) → α → s.Erased
  | _, leaf _, x => x
  | _, pair s t, (x, y) => (s.erase x, t.erase y)
  | _, tuple s, t => ⟨fun k => (s k).erase (t.get k)⟩
  | _, variant _, .vacant => .vacant
  | _, variant s, .chosen k x => .chosen k ((s k).erase x)
  | _, option s, x => x.map s.erase
  | _, labelled s, u => ⟨u.position, (s u.position).erase u.payload⟩
  | _, inherited R s, u => s.erase (R.toBase u)

/-- There is no refinement in the shape, at any depth. -/
inductive Unrefined : {α : Type} → Shape α → Prop where
  | leaf {α : Type} (c : Comparison α) : Unrefined (.leaf c)
  | pair {α β : Type} {s : Shape α} {t : Shape β} :
      Unrefined s → Unrefined t → Unrefined (.pair s t)
  | tuple {n : Nat} {F : Fin n → Type} {s : (k : Fin n) → Shape (F k)} :
      (∀ k, Unrefined (s k)) → Unrefined (.tuple s)
  | variant {n : Nat} {F : Fin n → Type} {s : (k : Fin n) → Shape (F k)} :
      (∀ k, Unrefined (s k)) → Unrefined (.variant s)
  | option {α : Type} {s : Shape α} : Unrefined s → Unrefined (.option s)
  | labelled {n : Nat} {I : Type} [DecidableEq I] {L : Labels n I} {F : Fin n → Type}
      {s : (k : Fin n) → Shape (F k)} :
      (∀ k, Unrefined (s k)) → Unrefined (.labelled (L := L) s)

end Shape

/-! ### Varying leaves -/

/-- The shape with the arguments of every leaf comparison exchanged. -/
def Shape.swapLeaves : {α : Type} → Shape α → Shape α
  | _, leaf c => .leaf c.swap
  | _, pair s t => .pair s.swapLeaves t.swapLeaves
  | _, tuple s => .tuple fun k => (s k).swapLeaves
  | _, variant s => .variant fun k => (s k).swapLeaves
  | _, option s => .option s.swapLeaves
  | _, labelled s => .labelled fun k => (s k).swapLeaves
  | _, inherited R s => .inherited R s.swapLeaves

/-- The first shape is built like the second, and each of its leaf comparisons is contained in the
corresponding one. -/
inductive Shape.Finer : {α : Type} → Shape α → Shape α → Prop where
  | leaf {α : Type} {c d : Comparison α} :
      (∀ x y, c x y = true → d x y = true) → Finer (.leaf c) (.leaf d)
  | pair {α β : Type} {s s' : Shape α} {t t' : Shape β} :
      Finer s s' → Finer t t' → Finer (.pair s t) (.pair s' t')
  | tuple {n : Nat} {F : Fin n → Type} {s s' : (k : Fin n) → Shape (F k)} :
      (∀ k, Finer (s k) (s' k)) → Finer (.tuple s) (.tuple s')
  | variant {n : Nat} {F : Fin n → Type} {s s' : (k : Fin n) → Shape (F k)} :
      (∀ k, Finer (s k) (s' k)) → Finer (.variant s) (.variant s')
  | option {α : Type} {s s' : Shape α} : Finer s s' → Finer (.option s) (.option s')
  | labelled {n : Nat} {I : Type} [DecidableEq I] {L : Labels n I} {F : Fin n → Type}
      {s s' : (k : Fin n) → Shape (F k)} :
      (∀ k, Finer (s k) (s' k)) → Finer (.labelled (L := L) s) (.labelled s')
  | inherited {σ β : Type} (R : Refinement σ β) {s s' : Shape β} :
      Finer s s' → Finer (.inherited R s) (.inherited R s')

end Sameness
