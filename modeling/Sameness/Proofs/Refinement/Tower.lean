import Sameness.Proofs.Refinement.Run
import Sameness.Refinement.Run

/-!
# Towers of refinements

Every value that can be constructed in a tower is **sound**: each layer accepts the value that it
wraps, all the way down. The builder of a layer checks nothing, so soundness rests on two facts. A
constructor calls the builder only on accepted base values, and those were constructed in the layers
below and so are sound themselves. Since projecting undoes building in every layer, a sound value is
also built again from its own projection.

The constructors of a tower go through the layers one after the other, and a layer sees only what
the layers below have made of the base value. All the same a tower is a single refinement
(`Tower.refinement`), whose predicate is the conjunction of the predicates of all layers:

* **Insertion** layer by layer has a value exactly when all predicates hold, and the constructor
  that faults does so exactly when one of them does not (`Tower.ofBase?_eq`,
  `Tower.ofBase_eq_elim`).
* **Projection** through all layers gives the base value back (`Tower.toBase_build`).
* **Comparison** through all layers is comparison of base values (`Tower.inherit_apply`).

None of this depends on the carrier, and so a tower agrees with its merged form, a single layer that
refines the base by the conjunction (`Tower.agrees_with_merged`).
-/

namespace Sameness.Tower

variable {β σ τ : Type} {t : Tower β σ} {l : Layer σ τ}

/-! ### The refinement invariant -/

/-- What a layer builds from a sound value that it accepts is sound. -/
theorem Sound.build {x : σ} (hx : t.Sound x) (hacc : l.refinement.accepts x = true) :
    (t.layer l).Sound (l.refinement.build x) := by
  rw [Sound, l.toBase_build]
  exact ⟨hacc, hx⟩

/-- **One step** with a sound base value keeps the current value sound. -/
theorem Sound.next {u : τ} (hu : (t.layer l).Sound u) {s : l.refinement.Step}
    (hs : t.Sound s.offered) : (t.layer l).Sound (s.next u) := by
  rw [s.next_eq]
  split
  · exact hs.build ‹_›
  · exact hu

/-- **Every constructed value is sound.** -/
theorem Constructed.sound {t : Tower β σ} {u : σ} (h : t.Constructed u) : t.Sound u := by
  induction h with
  | base x => trivial
  | first _ hc ih =>
    -- the constructor has looked at the predicate, and the induction at the layers below
    obtain ⟨hacc, rfl⟩ := hc.eq_build
    exact ih.build hacc
  | next _ _ ihu ihs => exact ihu.next ihs

/-- A sound value is built again from its projection, with and without a fault for the other
case. -/
theorem Sound.rebuild {u : τ} (h : (t.layer l).Sound u) :
    l.refinement.ofBase (l.refinement.toBase u) = .ok u ∧
      l.refinement.ofBase? (l.refinement.toBase u) = some u := by
  rw [Refinement.ofBase_of_accepts h.1, Refinement.ofBase?_of_accepts h.1, l.build_toBase]
  exact ⟨rfl, rfl⟩

/-- **The refinement invariant holds throughout every run.** From a constructed value, and with
constructed base values to offer, every construction step leaves a current value that each layer
accepts, from the uppermost to the lowest, and that its own projection builds again without a
fault. -/
theorem run_sound_of_constructed {u : τ} (hu : (t.layer l).Constructed u)
    {steps : List l.refinement.Step} (hsteps : ∀ s ∈ steps, t.Constructed s.offered)
    {past : List l.refinement.Step} (hpast : past <+: steps) :
    (t.layer l).Sound (Refinement.run u past) ∧
      l.refinement.ofBase (l.refinement.toBase (Refinement.run u past)) =
        .ok (Refinement.run u past) ∧
      l.refinement.ofBase? (l.refinement.toBase (Refinement.run u past)) =
        some (Refinement.run u past) := by
  have hsound : (t.layer l).Sound (Refinement.run u past) :=
    Refinement.run_induction hu.sound fun s hs _ hv =>
      hv.next (hsteps s (hpast.subset hs)).sound
  exact ⟨hsound, hsound.rebuild⟩

/-- Whether a number is even. -/
def isEven (x : Nat) : Bool := x % 2 == 0

/-- Whether an even number is a multiple of four. -/
def isFourfold (u : Refined isEven) : Bool := u.val % 4 == 0

/-- The even numbers. -/
def evens : Tower Nat (Refined isEven) := .layer .base (.refine isEven)

/-- The multiples of four as a layer over the even numbers. -/
def fours : Layer (Refined isEven) (Refined isFourfold) := .refine isFourfold

/-- A run with a fault, a replacement and a fallback. -/
def foursRun : List fours.refinement.Step := [.demand ⟨6⟩, .attempt ⟨12⟩, .orKeep ⟨2⟩]

/-- From the multiple of four 8, the run leads to 12, which its own projection builds again. -/
theorem run_sound_of_constructed_fours :
    (evens.layer fours).Constructed ⟨⟨8⟩⟩ ∧
      (∀ s ∈ foursRun, evens.Constructed s.offered) ∧
      foursRun <+: foursRun ∧
      (evens.layer fours).Sound ⟨⟨12⟩⟩ ∧
      fours.refinement.ofBase ⟨12⟩ = .ok ⟨⟨12⟩⟩ ∧
      fours.refinement.ofBase? ⟨12⟩ = some ⟨⟨12⟩⟩ := by
  have hu : (evens.layer fours).Constructed ⟨⟨8⟩⟩ :=
    .first (.first (.base 8) (.demand rfl)) (.attempt rfl)
  have hsteps : ∀ s ∈ foursRun, evens.Constructed s.offered := by
    intro s hs
    simp only [foursRun, List.mem_cons, List.not_mem_nil, or_false] at hs
    rcases hs with rfl | rfl | rfl
    · exact .first (.base 6) (.demand rfl)
    · exact .first (.base 12) (.demand rfl)
    · exact .first (.base 2) (.demand rfl)
  exact ⟨hu, hsteps, List.prefix_rfl, run_sound_of_constructed hu hsteps List.prefix_rfl⟩

/-! ### Layer by layer and at once -/

theorem accepts_eq_true_iff (t : Tower β σ) (x : β) :
    t.accepts x = true ↔ ∀ p ∈ t.predicates, p x = true := by
  induction t with
  | base => simp [accepts, predicates]
  | layer t l ih => simp [accepts, predicates, ih, or_imp, forall_and]

/-- Insertion layer by layer is insertion by the whole tower. -/
theorem ofBase?_eq (t : Tower β σ) (x : β) : t.ofBase? x = t.refinement.ofBase? x := by
  induction t with
  | base => rfl
  | layer t l ih =>
    rw [ofBase?, ih]
    rcases h : t.accepts x with _ | _
    · -- a refusal below is the end, and the conjunction fails with it
      have hlayer : (t.layer l).refinement.accepts x = false := by simp [refinement, accepts, h]
      rw [Refinement.ofBase?_of_not_accepts h, Refinement.ofBase?_of_not_accepts hlayer]
      rfl
    · -- the layers below have built their value, and the uppermost predicate decides
      rw [Refinement.ofBase?_of_accepts h]
      simp [Refinement.ofBase?, refinement, accepts, build, h]

/-- The constructor that faults makes the same values, and faults where there is none. -/
theorem ofBase_eq_elim (t : Tower β σ) (x : β) :
    t.ofBase x = (t.ofBase? x).elim (.error .predicateFails) .ok := by
  induction t with
  | base => rfl
  | layer t l ih =>
    rw [ofBase, ofBase?, ih]
    rcases t.ofBase? x with _ | u
    · rfl
    · exact l.refinement.ofBase_eq_elim u

theorem toBase_build (t : Tower β σ) (x : β) : t.toBase (t.build x) = x := by
  induction t with
  | base => rfl
  | layer t l ih => rw [build, toBase, l.toBase_build, ih]

/-- The comparison inherited layer by layer compares projections to the base. -/
theorem inherit_apply (t : Tower β σ) (c : Comparison β) (u v : σ) :
    t.inherit c u v = c (t.toBase u) (t.toBase v) := by
  induction t with
  | base => rfl
  | layer t l ih => rw [inherit, Refinement.inherit_apply, ih, toBase, toBase]

/-! ### Accepted base values -/

theorem isSome_ofBase? (t : Tower β σ) (x : β) : (t.ofBase? x).isSome = t.accepts x := by
  rw [ofBase?_eq, Refinement.isSome_ofBase?]
  rfl

theorem toBase_of_ofBase? {t : Tower β σ} {x : β} {u : σ} (h : t.ofBase? x = some u) :
    t.toBase u = x := by
  rw [ofBase?_eq, Refinement.ofBase?_eq_some_iff] at h
  obtain ⟨-, rfl⟩ := h
  exact t.toBase_build x

/-- Values of a tower compare as the base values that they were made of. -/
theorem inherit_of_ofBase? {t : Tower β σ} {x y : β} {u v : σ} (hu : t.ofBase? x = some u)
    (hv : t.ofBase? y = some v) (c : Comparison β) : t.inherit c u v = c x y := by
  rw [inherit_apply, toBase_of_ofBase? hu, toBase_of_ofBase? hv]

/-- **A tower is one refinement, by the conjunction.** A base value can be inserted layer by layer
exactly when the predicates of all layers hold of it, and that is when the merged layer accepts it.
What was inserted projects back to it. The constructor that faults makes the same values, and it
faults exactly where there is none. Two values of the tower compare as their counterparts in the
merged layer do, and that is as the base values do. -/
theorem agrees_with_merged (t : Tower β σ) (c : Comparison β) (x : β) :
    ((t.ofBase? x).isSome = true ↔ ∀ p ∈ t.predicates, p x = true) ∧
      (t.ofBase? x).isSome = (t.merged.ofBase? x).isSome ∧
      (∀ u, t.ofBase? x = some u → t.toBase u = x) ∧
      (∀ u, t.ofBase x = .ok u ↔ t.ofBase? x = some u) ∧
      (t.ofBase x = .error .predicateFails ↔ t.ofBase? x = none) ∧
      ∀ y u v w z, t.ofBase? x = some u → t.ofBase? y = some v →
        t.merged.ofBase? x = some w → t.merged.ofBase? y = some z →
        t.inherit c u v = t.merged.inherit c w z ∧ t.inherit c u v = c x y := by
  refine ⟨?_, ?_, fun _ => toBase_of_ofBase?, fun u => ?_, ?_, ?_⟩
  · rw [isSome_ofBase?, accepts_eq_true_iff]
  · rw [isSome_ofBase?, isSome_ofBase?]
    rfl
  · rw [ofBase_eq_elim]
    cases t.ofBase? x <;> simp
  · rw [ofBase_eq_elim]
    cases t.ofBase? x <;> simp
  · intro y u v w z hu hv hw hz
    have huv : t.inherit c u v = c x y := inherit_of_ofBase? hu hv c
    exact ⟨huv.trans (inherit_of_ofBase? hw hz c).symm, huv⟩

/-- Whether a renamed even number is below ten. -/
def isBelowTen (u : Renamed (Refined isEven) "even") : Bool := u.val.val < 10

/-- Three layers over the natural numbers, the one in the middle without a restriction. -/
def smallEvens : Tower Nat (Refined isBelowTen) :=
  (evens.layer (.rename "even")).layer (.refine isBelowTen)

/-- The numbers 8 and 4 pass all three layers and are compared as numbers. The number 7 is refused
by the lowest layer, although it is below ten, and 12 by the uppermost; in the merged layer there is
one predicate to refuse them. -/
theorem agrees_with_merged_smallEvens :
    smallEvens.ofBase? 8 = some ⟨⟨⟨8⟩⟩⟩ ∧ smallEvens.ofBase? 4 = some ⟨⟨⟨4⟩⟩⟩ ∧
      smallEvens.merged.ofBase? 8 = some ⟨8⟩ ∧ smallEvens.merged.ofBase? 4 = some ⟨4⟩ ∧
      smallEvens.toBase ⟨⟨⟨8⟩⟩⟩ = 8 ∧
      smallEvens.inherit Comparison.identity ⟨⟨⟨8⟩⟩⟩ ⟨⟨⟨4⟩⟩⟩ = false ∧
      smallEvens.ofBase 7 = .error .predicateFails ∧
      (smallEvens.merged.ofBase? 12).isSome = false := by
  obtain ⟨-, -, hback, -, -, hcompare⟩ :=
    agrees_with_merged smallEvens (Comparison.identity : Comparison Nat) 8
  obtain ⟨-, -, -, -, hfault, -⟩ :=
    agrees_with_merged smallEvens (Comparison.identity : Comparison Nat) 7
  obtain ⟨-, hmerged, -⟩ := agrees_with_merged smallEvens (Comparison.identity : Comparison Nat) 12
  exact ⟨rfl, rfl, rfl, rfl, hback _ rfl, (hcompare 4 _ _ _ _ rfl rfl rfl rfl).2, hfault.mpr rfl,
    hmerged.symm.trans rfl⟩

end Sameness.Tower
