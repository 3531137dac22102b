import Sameness.Catalogue.Scalar
import Sameness.Proofs.Compound
import Sameness.Shape

/-!
# Comparisons of shapes, by identity and up to erasure

Two statements about the comparison of a whole shape, each by induction on how the shape is built.

* **Over closed shapes** it decides identity. The induction follows the derivation that the shape is
  closed, with one closure property of `Comparison.Decides` for each construction
  (`Shape.Closed.decides`). Values of the identical type at different positions or under different
  labels fill different slots, and are never the same.
* **Over any leaves** it does not see refinements. A refined value is compared through its
  projection, so that replacing it by what it projects to changes no verdict. Erasure does this in
  every slot of a value, and it carries over from the components to the composite because each
  construction is **natural**: to compare composites along maps of their components is to map the
  components and compare the composites (`Comparison.variant_along` and its companions).
-/

namespace Sameness

/-! ### Closed shapes -/

/-- The scalar types of the catalogue are leaves of closed shapes. -/
theorem Scalar.closed_leaf {α : Type} (k : Scalar α) : (Shape.leaf k.compare).Closed := by
  cases k <;> first | exact .unit | exact .bool | exact .identity

/-- **Identity at every closed shape.** The leaves decide identity, and each construction passes the
property on from its components. -/
theorem Shape.Closed.decides {α : Type} {s : Shape α} (h : s.Closed) : s.compare.Decides := by
  induction h with
  | unit => exact .unit
  | bool => exact .bool
  | identity => exact .identity
  | pair _ _ ihs iht => exact .pair ihs iht
  | tuple _ ih => exact .tuple ih
  | variant _ ih => exact .variant ih
  | option _ ih => exact .option ih
  | labelled _ ih => exact .labelled ih
  | layer l _ ih => exact .layer ih l

/-- **The comparison of a closed shape decides identity**: it holds of two values exactly when they
are the same value. In particular it fails whenever some slot, such as a position of a variant or a
label, is filled in one of the two and empty in the other, whatever the payloads are. -/
theorem Shape.Closed.compare_decides_identity {α : Type} {s : Shape α} (h : s.Closed) :
    (∀ x y, s.compare x y = true ↔ x = y) ∧
      ∀ x y k, (s.composition.occupant? k x).isSome ≠ (s.composition.occupant? k y).isSome →
        s.compare x y = false := by
  refine ⟨h.decides, fun x y k hk => ?_⟩
  rw [Bool.eq_false_iff]
  intro hsame
  rw [(h.decides x y).mp hsame] at hk
  exact hk rfl

/-- Optional truth values under three labels that are not in order and all carry the same type. -/
def Shape.underThreeLabels : Shape (Labelled (⟨fun
    | 0 => 5
    | 1 => -3
    | 2 => 9, by decide⟩ : Labels 3 Int) fun _ => Option Bool) :=
  .labelled fun _ => .option (.leaf (Scalar.compare .bool))

/-- The same payload under two labels makes two different values, and two empty payloads under one
label make one. -/
theorem Shape.Closed.compare_decides_identity_underThreeLabels :
    Shape.underThreeLabels.Closed ∧
      Shape.underThreeLabels.compare ⟨1, none⟩ ⟨1, none⟩ = true ∧
      Shape.underThreeLabels.compare ⟨0, some true⟩ ⟨2, some true⟩ = false :=
  have h : Shape.underThreeLabels.Closed := .labelled fun _ => .option (Scalar.closed_leaf .bool)
  ⟨h, (h.compare_decides_identity.1 _ _).mpr rfl,
    h.compare_decides_identity.2 _ _ (0 : Fin 3) nofun⟩

/-! ### Constructions are natural in their components -/

namespace Comparison

variable {α β : Type}

theorem option_along (c : Comparison β) (f : α → β) :
    (c.along f).option = c.option.along (Option.map f) := by
  funext x y
  cases x <;> cases y <;> rfl

variable {n : Nat} {F G : Fin n → Type}

/-- Mapping payloads keeps positions, so the positions decide as before. -/
theorem variant_along (c : (k : Fin n) → Comparison (G k)) (f : (k : Fin n) → F k → G k) :
    (variant fun k => (c k).along (f k)) = (variant c).along (Variant.map f) := by
  funext u v
  rcases u with _ | ⟨j, x⟩ <;> rcases v with _ | ⟨k, y⟩
  · rfl
  · rfl
  · rfl
  · rw [along_apply, Variant.map_chosen, Variant.map_chosen]
    by_cases h : j = k
    · subst h
      rw [variant_chosen_self, variant_chosen_self, along_apply]
    · rw [variant_chosen_of_ne h, variant_chosen_of_ne h]

/-- Labelled values are compared as what they store, and mapping payloads maps what is stored. -/
theorem labelled_along {I : Type} [DecidableEq I] {L : Labels n I}
    (c : (k : Fin n) → Comparison (G k)) (f : (k : Fin n) → F k → G k) :
    (labelled fun k => (c k).along (f k) : Comparison (Labelled L F)) =
      (labelled c).along (Labelled.map f) := by
  rw [labelled_eq_along_storage, labelled_eq_along_storage, variant_along]
  rfl

end Comparison

/-! ### Erasure -/

namespace Shape

/-- Erasing a variant maps its value. In the other composites this is so by definition. -/
theorem erase_variant {n : Nat} {F : Fin n → Type} (s : (k : Fin n) → Shape (F k)) :
    (variant s).erase = Variant.map fun k => (s k).erase := by
  funext u
  cases u <;> rfl

/-- What is left after erasure has no refinement in it. -/
theorem unrefined_erased {α : Type} (s : Shape α) : s.erased.Unrefined := by
  induction s with
  | leaf c => exact .leaf c
  | pair s t ihs iht => exact .pair ihs iht
  | tuple s ih => exact .tuple ih
  | variant s ih => exact .variant ih
  | option s ih => exact .option ih
  | labelled s ih => exact .labelled ih
  | inherited R s ih => exact ih

/-- The comparison of a shape is the comparison of the erased shape along erasure. -/
theorem compare_eq_along_erase {α : Type} (s : Shape α) :
    s.compare = s.erased.compare.along s.erase := by
  -- by induction on the shape: the components are compared along their erasures, and naturality
  -- turns these into the erasure of the composite
  induction s with
  | leaf c => rfl
  | pair s t ihs iht =>
    rw [compare, ihs, iht]
    rfl
  | tuple s ih =>
    rw [compare, funext ih]
    rfl
  | variant s ih =>
    rw [compare, funext ih, Comparison.variant_along, ← erase_variant]
    rfl
  | option s ih =>
    rw [compare, ih, Comparison.option_along]
    rfl
  | labelled s ih =>
    rw [compare, funext ih, Comparison.labelled_along]
    rfl
  | inherited R s ih =>
    -- comparing through the projection is already comparing along a map
    rw [compare, ih]
    rfl

/-- **Erasing refinements preserves and reflects sameness.** Whatever the comparisons at the leaves
are, two values are compared as their erasures are, and the erased values are of a shape without any
refinement. -/
theorem compare_erase {α : Type} (s : Shape α) :
    s.erased.Unrefined ∧ ∀ u v, s.compare u v = s.erased.compare (s.erase u) (s.erase v) := by
  refine ⟨s.unrefined_erased, fun u v => ?_⟩
  rw [s.compare_eq_along_erase, Comparison.along_apply]

/-- A truth value beside a number below ten. -/
def belowTen : Shape (Bool × Refined fun n : Nat => n < 10) :=
  pair (leaf .bool) (inherited (Refined.refinement _) (leaf .identity))

/-- Two numbers below ten are told apart as the plain numbers are that they erase to. -/
theorem compare_erase_belowTen :
    belowTen.erased.compare (belowTen.erase (true, ⟨2⟩)) (belowTen.erase (true, ⟨4⟩)) = false ∧
      belowTen.compare (true, ⟨2⟩) (true, ⟨4⟩) = false ∧
      belowTen.compare (true, ⟨2⟩) (true, ⟨2⟩) = true := by
  obtain ⟨-, herase⟩ := compare_erase belowTen
  have hplain : belowTen.erased.compare (belowTen.erase (true, ⟨2⟩))
      (belowTen.erase (true, ⟨4⟩)) = false := rfl
  exact ⟨hplain, (herase _ _).trans hplain, (herase _ _).trans rfl⟩

end Shape

end Sameness
