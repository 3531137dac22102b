import Sameness.Proofs.Compound
import Sameness.Proofs.Labelled.RoundTrip
import Sameness.Sample.Basic
import Sameness.Shape
import Sameness.Specimen

/-!
# Composites are compared component by component

The comparison of a composite is the componentwise one: it holds of two values exactly when in every
slot either both are empty, or both hold components that are the same
(`Shape.componentwise_compare`). From this alone each law of a sample lifts by itself, without the
others:

* **Reflexivity** looks at one slot of one value.
* **Symmetry** and **agreement with identity** exchange one componentwise condition for another,
  slot by slot.
* **Transitivity** uses that two related values fill the same slots, so that the three values of a
  chain do.

Only the components that occur in the sample are looked at, and no component comparison is assumed
to be anything.

A comparison need not be symmetric, and then it matters which of two values stands on the left. A
composite keeps the order of the arguments in each of its slots: to exchange the two values is to
exchange the arguments at every leaf (`Shape.compare_swapLeaves`). Nor does it turn anything round.
If the comparisons at the leaves hold more often, so does the comparison of the whole
(`Shape.compare_of_finer`). Both are properties of the lifting of every shape (`Shape.lift_swap`,
`Shape.lift_mono`), and hold at any depth by induction.
-/

namespace Sameness

/-! ### Composites are compared componentwise -/

namespace Comparison

variable {α : Type} {n : Nat} {F : Fin n → Type}

theorem option_eq_true_iff {c : Comparison α} {x y : Option α} :
    c.option x y = true ↔ Option.Rel (fun a b => c a b = true) x y := by
  cases x <;> cases y <;> simp

/-- Variants are compared slot by slot: a position that is filled on one side only tells the two
apart, and vacant variants have no filled position. -/
theorem variant_eq_true_iff {c : (k : Fin n) → Comparison (F k)} {u v : Variant F} :
    variant c u v = true ↔ ∀ k, Option.Rel (fun a b => c k a b = true) (u.get? k) (v.get? k) := by
  rcases u with _ | ⟨j, x⟩ <;> rcases v with _ | ⟨k, y⟩
  · simp
  · exact iff_of_false (by simp) fun hrel => by simpa using hrel k
  · exact iff_of_false (by simp) fun hrel => by simpa using hrel j
  · by_cases h : j = k
    · subst h
      rw [variant_chosen_self]
      refine ⟨fun hxy i => ?_, fun hrel => by simpa using hrel j⟩
      by_cases hi : j = i
      · subst hi
        simpa using hxy
      · rw [Variant.get?_chosen_of_ne hi, Variant.get?_chosen_of_ne hi]
        exact .none
    · rw [variant_chosen_of_ne h]
      refine iff_of_false (by simp) fun hrel => ?_
      -- the slot `j` is filled on the left and empty on the right
      have hj := hrel j
      rw [Variant.get?_chosen_self, Variant.get?_chosen_of_ne (Ne.symm h)] at hj
      cases hj

theorem labelled_eq_true_iff {I : Type} [DecidableEq I] {L : Labels n I}
    {c : (k : Fin n) → Comparison (F k)} {u v : Labelled L F} :
    Comparison.labelled c u v = true ↔
      ∀ k, Option.Rel (fun a b => c k a b = true) (u.storage.get? k) (v.storage.get? k) := by
  rw [labelled_eq_along_storage]
  exact variant_eq_true_iff

end Comparison

/-- **Lifting is componentwise**, for every kind of composite and any comparisons of the
components. -/
theorem Shape.componentwise_lift {α : Type} (s : Shape α)
    (d : (k : s.composition.Slot) → Comparison (s.composition.Component k)) :
    s.composition.Componentwise d (s.composition.lift d) := by
  intro x y
  cases s with
  | leaf c =>
    refine ⟨fun h _ => .some h, fun h => ?_⟩
    obtain hxy | _ := h ()
    exact hxy
  | pair s t =>
    refine Comparison.pair_eq_true_iff.trans ⟨fun h k => ?_, fun h => ?_⟩
    · cases k
      · exact .some h.1
      · exact .some h.2
    · obtain h₁ | _ := h false
      obtain h₂ | _ := h true
      exact ⟨h₁, h₂⟩
  | tuple s =>
    refine Comparison.tuple_eq_true_iff.trans ⟨fun h k => .some (h k), fun h k => ?_⟩
    obtain hk | _ := h k
    exact hk
  | variant s => exact Comparison.variant_eq_true_iff
  | option s => exact Comparison.option_eq_true_iff.trans ⟨fun h _ => h, fun h => h ()⟩
  | labelled s => exact Comparison.labelled_eq_true_iff
  | inherited R s =>
    refine ⟨fun h _ => .some h, fun h => ?_⟩
    obtain hxy | _ := h ()
    exact hxy

/-- The comparison of a shape is the componentwise one over the comparisons of its components. -/
theorem Shape.componentwise_compare {α : Type} (s : Shape α) :
    s.composition.Componentwise (fun k => (s.composition.shape k).compare) s.compare := by
  have h := s.componentwise_lift fun k => (s.composition.shape k).compare
  rwa [s.lift_composition] at h

/-! ### Laws lift from the occupants of the slots -/

/-- Along a chain of three options, either all are empty or all are filled, so a relation that is
transitive on what they hold is so on the options. -/
private theorem rel_trans {α : Type} {r : α → α → Prop} {o₁ o₂ o₃ : Option α}
    (h : ∀ a₁ a₂ a₃, o₁ = some a₁ → o₂ = some a₂ → o₃ = some a₃ →
      r a₁ a₂ → r a₂ a₃ → r a₁ a₃)
    (h₁₂ : Option.Rel r o₁ o₂) (h₂₃ : Option.Rel r o₂ o₃) : Option.Rel r o₁ o₃ := by
  rcases h₁₂ with hr₁₂ | _
  · rcases h₂₃ with hr₂₃ | _
    exact .some (h _ _ _ rfl rfl rfl hr₁₂ hr₂₃)
  · exact h₂₃

namespace Composition

open Sample

variable {α : Type} {C : Composition α} {xs : List α}

theorem mem_occupants {k : C.Slot} {a : C.Component k} :
    a ∈ C.occupants k xs ↔ ∃ x ∈ xs, C.occupant? k x = some a := List.mem_filterMap

namespace Componentwise

variable {d e : (k : C.Slot) → Comparison (C.Component k)} {c same : Comparison α}

theorem reflexive (hc : C.Componentwise d c)
    (h : ∀ k, Sample.reflexive (d k) (C.occupants k xs) = true) :
    Sample.reflexive c xs = true := by
  rw [reflexive_eq_true_iff]
  intro x hx
  refine (hc x x).mpr fun k => ?_
  rcases ho : C.occupant? k x with _ | a
  · exact .none
  · exact .some (reflexive_eq_true_iff.mp (h k) a (mem_occupants.mpr ⟨x, hx, ho⟩))

/-- Agreement lifts: on each pair of the sample, two componentwise comparisons differ only where
some pair of components in one slot makes them differ. -/
theorem decides (hc : C.Componentwise d c) (hsame : C.Componentwise e same)
    (h : ∀ k, Sample.decides (d k) (C.occupants k xs) (e k) = true) :
    Sample.decides c xs same = true := by
  rw [decides_eq_true_iff]
  intro x hx y hy
  have hslots : ∀ k, Option.Rel (fun a b => d k a b = true) (C.occupant? k x) (C.occupant? k y) ↔
      Option.Rel (fun a b => e k a b = true) (C.occupant? k x) (C.occupant? k y) := by
    intro k
    rcases hx' : C.occupant? k x with _ | a <;> rcases hy' : C.occupant? k y with _ | b
    · simp
    · simp
    · simp
    · have hab := decides_eq_true_iff.mp (h k) a (mem_occupants.mpr ⟨x, hx, hx'⟩) b
        (mem_occupants.mpr ⟨y, hy, hy'⟩)
      rw [Option.rel_some_some, Option.rel_some_some]
      exact Bool.eq_iff_iff.mp hab
  exact Bool.eq_iff_iff.mpr ((hc x y).trans ((forall_congr' hslots).trans (hsame x y).symm))

/-- Exchanging the arguments of the whole exchanges those of every component. -/
theorem swap (hc : C.Componentwise d c) : C.Componentwise (fun k => (d k).swap) c.swap := by
  intro x y
  refine (hc y x).trans (forall_congr' fun k => ?_)
  cases C.occupant? k x <;> cases C.occupant? k y <;> simp

/-- Symmetry is agreement with the exchanged comparison. -/
theorem symmetric (hc : C.Componentwise d c)
    (h : ∀ k, Sample.symmetric (d k) (C.occupants k xs) = true) :
    Sample.symmetric c xs = true :=
  hc.decides hc.swap h

theorem transitive (hc : C.Componentwise d c)
    (h : ∀ k, Sample.transitive (d k) (C.occupants k xs) = true) :
    Sample.transitive c xs = true := by
  rw [transitive_eq_true_iff]
  intro x hx y hy z hz hxy hyz
  refine (hc x z).mpr fun k => rel_trans ?_ ((hc x y).mp hxy k) ((hc y z).mp hyz k)
  -- what the slot holds in the three values occurs in the sample, so the hypothesis speaks of it
  intro a₁ a₂ a₃ h₁ h₂ h₃
  exact transitive_eq_true_iff.mp (h k) a₁ (mem_occupants.mpr ⟨x, hx, h₁⟩)
    a₂ (mem_occupants.mpr ⟨y, hy, h₂⟩) a₃ (mem_occupants.mpr ⟨z, hz, h₃⟩)

end Componentwise

end Composition

/-- **Each law lifts to composites by itself.** Whatever the comparisons of the components are: if
for every slot the components that occur there in the sample obey the law, so does the sample under
the comparison of the composite. For agreement with identity, the identity `same` of the composite
is the componentwise one over the identities `e` of the components. -/
theorem Shape.law_holds_of_occupants {α : Type} (s : Shape α) (L : Sample.Law) (xs : List α)
    (e : (k : s.composition.Slot) → Comparison (s.composition.Component k)) (same : Comparison α)
    (hsame : s.composition.Componentwise e same)
    (h : ∀ k, L.holds (s.composition.shape k).compare (e k) (s.composition.occupants k xs) = true) :
    L.holds s.compare same xs = true := by
  cases L with
  | reflexive => exact s.componentwise_compare.reflexive h
  | symmetric => exact s.componentwise_compare.symmetric h
  | transitive => exact s.componentwise_compare.transitive h
  | decides => exact s.componentwise_compare.decides hsame h

/-- A variant whose three positions carry numbers, compared by order, by parity and never. -/
def Shape.threeOrders : Shape (Variant fun _ : Fin 3 => Nat) :=
  .variant fun
    | 0 => .leaf fun a b => decide (a ≤ b)
    | 1 => .leaf fun a b => a % 2 == b % 2
    | 2 => .leaf fun _ _ => false

/-- Six values of the variant, one of them vacant. -/
def Shape.threeOrdersSample : List (Variant fun _ : Fin 3 => Nat) :=
  [.chosen 0 (2 : Nat), .vacant, .chosen 1 (3 : Nat), .chosen 2 (2 : Nat), .chosen 0 (1 : Nat),
    .chosen 1 (5 : Nat)]

/-- Transitivity lifts although one of the three comparisons is not symmetric and another is not
reflexive. -/
theorem Shape.law_holds_of_occupants_threeOrders :
    Shape.threeOrders.composition.Componentwise
        (fun k => (Shape.threeOrders.composition.shape k).compare) Shape.threeOrders.compare ∧
      (∀ k, Sample.Law.transitive.holds (Shape.threeOrders.composition.shape k).compare
        (Shape.threeOrders.composition.shape k).compare
        (Shape.threeOrders.composition.occupants k Shape.threeOrdersSample) = true) ∧
      Sample.Law.transitive.holds Shape.threeOrders.compare Shape.threeOrders.compare
        Shape.threeOrdersSample = true :=
  have hsame := Shape.threeOrders.componentwise_compare
  have hslots : ∀ k, Sample.Law.transitive.holds (Shape.threeOrders.composition.shape k).compare
      (Shape.threeOrders.composition.shape k).compare
      (Shape.threeOrders.composition.occupants k Shape.threeOrdersSample) = true := fun
    | (0 : Fin 3) => rfl
    | (1 : Fin 3) => rfl
    | (2 : Fin 3) => rfl
  ⟨hsame, hslots, Shape.threeOrders.law_holds_of_occupants .transitive _ _ _ hsame hslots⟩

/-! ### Exchanged and coarser components -/

/-- Two options that are related stay so under a relation that holds more often. -/
private theorem rel_mono {α : Type} {r r' : α → α → Prop} {o₁ o₂ : Option α}
    (h : ∀ a b, r a b → r' a b) (ho : Option.Rel r o₁ o₂) : Option.Rel r' o₁ o₂ := by
  cases ho with
  | some hr => exact .some (h _ _ hr)
  | none => exact .none

namespace Composition.Componentwise

variable {α : Type} {C : Composition α} {d e : (k : C.Slot) → Comparison (C.Component k)}
  {c c' : Comparison α}

/-- The comparisons of what the slots hold leave no choice for the whole. -/
theorem unique (hc : C.Componentwise d c) (hc' : C.Componentwise d c') : c = c' := by
  funext x y
  exact Bool.eq_iff_iff.mpr ((hc x y).trans (hc' x y).symm)

theorem mono (hc : C.Componentwise d c) (hc' : C.Componentwise e c')
    (h : ∀ k a b, d k a b = true → e k a b = true) {x y : α} (hxy : c x y = true) :
    c' x y = true :=
  (hc' x y).mpr fun k => rel_mono (h k) ((hc x y).mp hxy k)

end Composition.Componentwise

namespace Shape

variable {α : Type}

/-- Exchanging the arguments in every slot exchanges those of the whole. -/
theorem lift_swap (s : Shape α)
    (d : (k : s.composition.Slot) → Comparison (s.composition.Component k)) :
    (s.composition.lift fun k => (d k).swap) = (s.composition.lift d).swap :=
  (s.componentwise_lift fun k => (d k).swap).unique (s.componentwise_lift d).swap

/-- What holds in every slot under one comparison and so under another, holds of the whole under the
other. -/
theorem lift_mono (s : Shape α)
    {d e : (k : s.composition.Slot) → Comparison (s.composition.Component k)}
    (h : ∀ k a b, d k a b = true → e k a b = true) {x y : α}
    (hxy : s.composition.lift d x y = true) : s.composition.lift e x y = true :=
  (s.componentwise_lift d).mono (s.componentwise_lift e) h hxy

/-! ### Leaves at any depth -/

/-- **Order.** The comparison over exchanged leaves is the exchanged comparison. -/
theorem compare_swapLeaves (s : Shape α) : s.swapLeaves.compare = s.compare.swap := by
  -- by induction on the shape: the components are exchanged, and so is the layer around them
  induction s with
  | leaf c => rfl
  | pair s t ihs iht =>
    rw [swapLeaves, compare, ihs, iht]
    rfl
  | tuple s ih =>
    rw [swapLeaves, compare, funext ih]
    rfl
  | variant s ih =>
    rw [swapLeaves, compare, funext ih]
    exact (Shape.variant s).lift_swap fun k => (s k).compare
  | option s ih =>
    rw [swapLeaves, compare, ih]
    exact (Shape.option s).lift_swap fun _ => s.compare
  | @labelled _ _ _ L _ s ih =>
    rw [swapLeaves, compare, funext ih]
    exact (Shape.labelled (L := L) s).lift_swap fun k => (s k).compare
  | inherited R s ih =>
    rw [swapLeaves, compare, ih]
    rfl

/-- **Strength.** What is the same over the finer leaves is the same over the coarser ones. -/
theorem compare_of_finer {s t : Shape α} (h : s.Finer t) {u v : α}
    (huv : s.compare u v = true) : t.compare u v = true := by
  induction h with
  | leaf h => exact h _ _ huv
  | pair _ _ ihs iht =>
    obtain ⟨hfst, hsnd⟩ := Comparison.pair_eq_true_iff.mp huv
    exact Comparison.pair_eq_true_iff.mpr ⟨ihs hfst, iht hsnd⟩
  | tuple _ ih =>
    have hfields := Comparison.tuple_eq_true_iff.mp huv
    exact Comparison.tuple_eq_true_iff.mpr fun k => ih k (hfields k)
  | @variant _ _ s t _ ih =>
    exact (Shape.variant s).lift_mono (e := fun k => (t k).compare) (fun k _ _ => ih k) huv
  | @option _ s t _ ih =>
    exact (Shape.option s).lift_mono (e := fun _ => t.compare) (fun _ _ _ => ih) huv
  | @labelled _ _ _ L _ s t _ ih =>
    exact (Shape.labelled (L := L) s).lift_mono (e := fun k => (t k).compare)
      (fun k _ _ => ih k) huv
  | inherited R _ ih => exact ih huv

/-- **Comparisons follow their leaves.** To compare two values of any shape the other way round is
to compare them over the leaf comparisons with their arguments exchanged. If each leaf comparison is
contained in the corresponding one of another shape built alike, then so is the comparison of the
whole. -/
theorem compare_follows_leaves (s : Shape α) :
    (∀ u v, s.compare v u = s.swapLeaves.compare u v) ∧
      ∀ t, s.Finer t → ∀ u v, s.compare u v = true → t.compare u v = true := by
  refine ⟨fun u v => ?_, fun t h u v => compare_of_finer h⟩
  rw [s.compare_swapLeaves, Comparison.swap_apply]

/-- Under four labels, optional pairs of a keyed record and a percentage, which is compared as a
number. -/
def keyedPercents (c : Comparison Keyed) (d : Comparison Int32) :
    Shape (Labelled Labelled.fourLabels fun _ => Option (Keyed × Percent)) :=
  .labelled fun _ => .option (.pair (.leaf c) (.inherited Percent.refinement (.leaf d)))

/-- A percentage, in hundredths, beside one and the same record under the third label. -/
def keyedPercent (p : Int32) : Labelled Labelled.fourLabels fun _ => Option (Keyed × Percent) :=
  ⟨⟨2, Nat.le_succ 3⟩, some (⟨3, 1⟩, ⟨p⟩)⟩

/-- The right number is the left one or higher. -/
def rising : Comparison Int32 := fun x y => decide (x ≤ y)

/-- Percentages may go up from left to right, and so down from right to left over exchanged leaves;
the other way round they are told apart. To be identical is stronger for keyed records than to have
the same key, and what the key tells apart is not identical. -/
theorem compare_follows_leaves_keyedPercents :
    (keyedPercents .identity rising).Finer (keyedPercents Keyed.compare rising) ∧
      (keyedPercents .identity rising).compare (keyedPercent 100) (keyedPercent 250) = true ∧
      (keyedPercents Keyed.compare rising).compare (keyedPercent 100) (keyedPercent 250) = true ∧
      (keyedPercents .identity rising).swapLeaves.compare (keyedPercent 250) (keyedPercent 100) =
        true ∧
      (keyedPercents Keyed.compare rising).compare (keyedPercent 250) (keyedPercent 100) = false ∧
      (keyedPercents .identity rising).compare (keyedPercent 250) (keyedPercent 100) = false ∧
      (keyedPercents .identity rising).swapLeaves.compare (keyedPercent 100) (keyedPercent 250) =
        false := by
  have hkey : ∀ x y : Keyed, Comparison.identity x y = true → Keyed.compare x y = true := by
    intro x y h
    rw [Comparison.identity_eq_true_iff.mp h]
    exact Comparison.identity_eq_true_iff.mpr rfl
  have hfiner : (keyedPercents .identity rising).Finer (keyedPercents Keyed.compare rising) :=
    .labelled fun _ => .option (.pair (.leaf hkey) (.inherited _ (.leaf fun _ _ h => h)))
  have hsame : (keyedPercents .identity rising).compare (keyedPercent 100) (keyedPercent 250) =
      true := by decide
  have hapart : (keyedPercents Keyed.compare rising).compare (keyedPercent 250)
      (keyedPercent 100) = false := by decide
  obtain ⟨hswap, hcoarser⟩ := compare_follows_leaves (keyedPercents .identity rising)
  -- what the coarser comparison tells apart, so does the finer one
  have hfine : (keyedPercents .identity rising).compare (keyedPercent 250) (keyedPercent 100) =
      false :=
    Bool.eq_false_iff.mpr fun h => Bool.eq_false_iff.mp hapart (hcoarser _ hfiner _ _ h)
  exact ⟨hfiner, hsame, hcoarser _ hfiner _ _ hsame, (hswap _ _).symm.trans hsame, hapart, hfine,
    (hswap _ _).symm.trans hfine⟩

end Shape

end Sameness
