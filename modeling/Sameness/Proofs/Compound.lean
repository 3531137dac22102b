import Mathlib.Logic.Function.Basic
import Sameness.Compound.Basic
import Sameness.Compound.Labelled
import Sameness.Refinement.Basic

/-!
# Comparisons of composites

`Comparison.Decides` says that a comparison finds two values the same exactly when they are one
value. The elementary comparisons have the property, and every construction of the library keeps it:

* **Products** keep it because a pair or a tuple is determined by its components.
* **Options and variants** keep it because the position is compared before the value, so equal
  payloads at different positions stay apart.
* **Labelled values** keep it because the labels are distinct: the comparison is the one of the
  stored variants (`Comparison.labelled_eq_along_storage`).
* **Images** keep it along injective maps, and the projection of a ready-made refinement is one.

The same value can be held as a tuple or as nested pairs, as a variant or as nested binary sums, and
each form brings a comparison of its own, written in its own way. They all agree, for any
comparisons of the components and on either side of the arguments (`Comparison.forms_agree`): the
conjunction over all positions is the conjunction of the first and the rest, and the position that
is filled is the first one or one of the rest.
-/

namespace Sameness

/-! ### Labelled values by position -/

section Labelled

variable {n : Nat} {I : Type} {L : Labels n I} {F : Fin n → Type}

/-- Distinct labels: two values have the same label exactly when they have the same position. -/
theorem Labelled.label_eq_iff {u v : Labelled L F} :
    u.label = v.label ↔ u.position = v.position :=
  ⟨L.distinct _ _, fun h => congrArg L.label h⟩

theorem Labelled.storage_injective : Function.Injective (Labelled.storage (L := L) (F := F)) := by
  rintro ⟨j, x⟩ ⟨k, y⟩ h
  change Variant.chosen j x = Variant.chosen k y at h
  obtain ⟨rfl, hxy⟩ := Variant.chosen.inj h
  rw [eq_of_heq hxy]

variable [DecidableEq I]

/-- The comparison of labelled values is the positional comparison of what they store: equal labels
leave the right value where it is, and different labels are at different positions. -/
theorem Comparison.labelled_eq_along_storage (c : (k : Fin n) → Comparison (F k)) :
    (Comparison.labelled c : Comparison (Labelled L F)) =
      (Comparison.variant c).along Labelled.storage := by
  funext u v
  rw [Comparison.along_apply, Comparison.labelled]
  by_cases h : u.label = v.label
  · rw [if_pos h, Labelled.transport, if_pos h]
  · -- nothing is compared under different labels, and the stored positions differ with them
    have hne : u.position ≠ v.position := fun hp => h (Labelled.label_eq_iff.mpr hp)
    rw [if_neg h, Labelled.storage, Labelled.storage, Comparison.variant_chosen_of_ne hne]

end Labelled

/-! ### Elementary comparisons and images -/

namespace Comparison.Decides

variable {α β : Type} {c : Comparison α} {d : Comparison β}

protected theorem identity [DecidableEq α] : (Comparison.identity : Comparison α).Decides :=
  fun _ _ => identity_eq_true_iff

protected theorem unit : Comparison.unit.Decides := fun _ _ => ⟨fun _ => rfl, fun _ => rfl⟩

protected theorem bool : Comparison.bool.Decides := fun _ _ => bool_eq_true_iff

/-- There is only one comparison that decides identity. -/
theorem unique {c' : Comparison α} (hc : c.Decides) (hc' : c'.Decides) : c = c' := by
  funext x y
  rw [Bool.eq_iff_iff, hc, hc']

theorem eq_identity [DecidableEq α] (hc : c.Decides) : c = Comparison.identity :=
  hc.unique .identity

theorem refl (hc : c.Decides) (x : α) : c x x = true := (hc x x).mpr rfl

theorem partialEquivalence (hc : c.Decides) : c.PartialEquivalence := by
  refine ⟨fun h => ?_, fun h₁ h₂ => ?_⟩
  · rw [(hc _ _).mp h]
    exact hc.refl _
  · rw [(hc _ _).mp h₁]
    exact h₂

/-- Along an injective map, identity of images is identity of values. -/
protected theorem along (hd : d.Decides) {f : α → β} (hf : Function.Injective f) :
    (d.along f).Decides := by
  intro x y
  rw [along_apply, hd, hf.eq_iff]

/-! ### Composites -/

protected theorem pair (hc : c.Decides) (hd : d.Decides) : (c.pair d).Decides := by
  rintro ⟨x₁, y₁⟩ ⟨x₂, y₂⟩
  rw [pair_eq_true_iff, hc, hd, Prod.mk.injEq]

protected theorem option (hc : c.Decides) : c.option.Decides := by
  rintro (_ | x) (_ | y)
  · simp
  · simp
  · simp
  · rw [option_some_some, hc, Option.some.injEq]

variable {n : Nat} {F : Fin n → Type} {cs : (k : Fin n) → Comparison (F k)}

protected theorem tuple (hcs : ∀ k, (cs k).Decides) : (Comparison.tuple cs).Decides := by
  intro u v
  rw [tuple_eq_true_iff, Tuple.ext_iff, funext_iff]
  exact forall_congr' fun k => hcs k _ _

protected theorem variant (hcs : ∀ k, (cs k).Decides) : (Comparison.variant cs).Decides := by
  rintro (_ | ⟨j, x⟩) (_ | ⟨k, y⟩)
  · simp
  · simp
  · simp
  · by_cases h : j = k
    · subst h
      rw [variant_chosen_self, hcs, Variant.chosen.injEq]
      simp
    · rw [variant_chosen_of_ne h]
      simp [h]

protected theorem labelled {I : Type} [DecidableEq I] {L : Labels n I}
    (hcs : ∀ k, (cs k).Decides) :
    (Comparison.labelled cs : Comparison (Labelled L F)).Decides := by
  rw [labelled_eq_along_storage]
  exact (Decides.variant hcs).along Labelled.storage_injective

/-- A ready-made refinement projects injectively, whatever its predicate. -/
protected theorem layer (hd : d.Decides) (l : Layer β α) : (l.refinement.inherit d).Decides :=
  hd.along l.toBase_injective

end Comparison.Decides

namespace Comparison

/-! ### Products in other forms -/

theorem pair_eq_tuple {α β : Type} (c : Comparison α) (d : Comparison β) (u v : α × β) :
    c.pair d u v = tuple (sides c d) (.ofPair u) (.ofPair v) := by
  have hpositions : List.finRange 2 = [0, 1] := rfl
  rw [tuple, hpositions, List.all_cons, List.all_cons, List.all_nil, Bool.and_true]
  rfl

/-- The first field, and then the rest. -/
theorem tuple_succ {n : Nat} {F : Fin (n + 1) → Type} (c : (k : Fin (n + 1)) → Comparison (F k))
    (u v : Tuple F) :
    tuple c u v = (c 0 (u.get 0) (v.get 0) &&
      tuple (fun k => c k.succ) ⟨fun k => u.get k.succ⟩ ⟨fun k => v.get k.succ⟩) := by
  rw [tuple, List.finRange_succ, List.all_cons, List.all_map]
  rfl

theorem tuple_eq_nestedPair {n : Nat} {F : Fin n → Type} (c : (k : Fin n) → Comparison (F k))
    (u v : Tuple F) : tuple c u v = nestedPair c u.nest v.nest := by
  induction n with
  | zero => rfl
  | succ n ih =>
    rw [tuple_succ, ih]
    rfl

/-! ### Sums in other forms -/

theorem option_eq_either {α : Type} (c : Comparison α) (x y : Option α) :
    c.option x y = unit.either c (.ofOption x) (.ofOption y) := by
  cases x <;> cases y <;> simp [Either.ofOption, unit]

/-- The rest of the positions, renumbered. -/
theorem variant_succ_succ {n : Nat} {F : Fin (n + 1) → Type}
    (c : (k : Fin (n + 1)) → Comparison (F k)) (j k : Fin n) (x : F j.succ) (y : F k.succ) :
    variant c (.chosen j.succ x) (.chosen k.succ y) =
      variant (fun i => c i.succ) (.chosen j x) (.chosen k y) := by
  by_cases h : j = k
  · subst h
    rw [variant_chosen_self, variant_chosen_self]
  · have hsucc : j.succ ≠ k.succ := fun hs => h (Fin.succ_inj.mp hs)
    rw [variant_chosen_of_ne h, variant_chosen_of_ne hsucc]

/-- By induction on the number of alternatives: a nested sum is at its first alternative or in the
rest, as the position is zero or not. -/
theorem variant_eq_nestedSum {n : Nat} {F : Fin (n + 1) → Type}
    (c : (k : Fin (n + 1)) → Comparison (F k)) (j k : Fin (n + 1)) (x : F j) (y : F k) :
    variant c (.chosen j x) (.chosen k y) =
      nestedSum c (NestedSum.chosen j x) (NestedSum.chosen k y) := by
  induction n with
  | zero =>
    obtain rfl : j = 0 := Fin.fin_one_eq_zero j
    obtain rfl : k = 0 := Fin.fin_one_eq_zero k
    exact variant_chosen_self 0 x y
  | succ n ih =>
    cases j using Fin.cases with
    | zero =>
      cases k using Fin.cases with
      | zero =>
        rw [variant_chosen_self, NestedSum.chosen_zero, NestedSum.chosen_zero, nestedSum,
          either_left_left]
      | succ k =>
        have hne : (0 : Fin (n + 2)) ≠ k.succ := (Fin.succ_ne_zero k).symm
        rw [variant_chosen_of_ne hne, NestedSum.chosen_zero, NestedSum.chosen_succ, nestedSum,
          either_left_right]
    | succ j =>
      cases k using Fin.cases with
      | zero =>
        have hne : j.succ ≠ 0 := Fin.succ_ne_zero j
        rw [variant_chosen_of_ne hne, NestedSum.chosen_zero, NestedSum.chosen_succ, nestedSum,
          either_right_left]
      | succ k =>
        rw [variant_succ_succ, ih, NestedSum.chosen_succ, NestedSum.chosen_succ, nestedSum,
          either_right_right]

/-! ### Search -/

/-- A search stops at the position that is filled, and finds nothing before it. -/
theorem search_chosen {n : Nat} {F : Fin n → Type} (c : (k : Fin n) → Comparison (F k)) (k : Fin n)
    (x y : F k) : (Variant.chosen k x).search c (.chosen k y) = some (c k x y) := by
  have hhere : (do
      let a ← (Variant.chosen k x).get? k
      let b ← (Variant.chosen k y).get? k
      return c k a b) = some (c k x y) := by simp
  rcases hs : (Variant.chosen k x).search c (.chosen k y) with _ | b
  · have hnone := List.findSome?_eq_none_iff.mp hs k (List.mem_finRange k)
    cases hnone.symm.trans hhere
  · obtain ⟨j, -, hj⟩ := List.exists_of_findSome?_eq_some hs
    by_cases h : k = j
    · subst h
      exact hj.symm.trans hhere
    · rw [Variant.get?_chosen_of_ne h] at hj
      cases hj

theorem variantBySearch_eq {n : Nat} {F : Fin n → Type} (c : (k : Fin n) → Comparison (F k)) :
    variantBySearch c = variant c := by
  funext u v
  rcases u with _ | ⟨j, x⟩ <;> rcases v with _ | ⟨k, y⟩
  · rfl
  · rfl
  · rfl
  · by_cases h : j = k
    · subst h
      rw [variantBySearch, search_chosen, variant_chosen_self]
      simp [Variant.position?]
    · rw [variantBySearch, variant_chosen_of_ne h]
      simp [Variant.position?, h]

/-! ### All forms -/

/-- **All forms agree.** Whatever the comparisons of the components are: a pair is compared as the
tuple of its two components, a tuple of any length as nested pairs, an option as the binary sum with
nothing on the left, and variants over any number of alternatives that are not vacant as nested
binary sums. Looking for the filled position of two variants comes to the same as comparing the
positions. -/
theorem forms_agree :
    (∀ {α β : Type} (c : Comparison α) (d : Comparison β) (u v : α × β),
      c.pair d u v = tuple (sides c d) (.ofPair u) (.ofPair v)) ∧
    (∀ {n : Nat} {F : Fin n → Type} (c : (k : Fin n) → Comparison (F k)) (u v : Tuple F),
      tuple c u v = nestedPair c u.nest v.nest) ∧
    (∀ {α : Type} (c : Comparison α) (x y : Option α),
      c.option x y = unit.either c (.ofOption x) (.ofOption y)) ∧
    (∀ {n : Nat} {F : Fin (n + 1) → Type} (c : (k : Fin (n + 1)) → Comparison (F k))
      (j k : Fin (n + 1)) (x : F j) (y : F k),
      variant c (.chosen j x) (.chosen k y) =
        nestedSum c (NestedSum.chosen j x) (NestedSum.chosen k y)) ∧
    ∀ {n : Nat} {F : Fin n → Type} (c : (k : Fin n) → Comparison (F k)) (u v : Variant F),
      variantBySearch c u v = variant c u v :=
  ⟨pair_eq_tuple, tuple_eq_nestedPair, option_eq_either, variant_eq_nestedSum, fun c u v => by
    rw [variantBySearch_eq]⟩

end Comparison

end Sameness
