import Mathlib.Algebra.Group.Int.Defs
import Mathlib.Algebra.Group.Nat.Defs
import Sameness.Compound.Basic
import Sameness.Proofs.Compound
import Sameness.Proofs.Refinement.Run
import Sameness.Sample.Check
import Sameness.Specimen

/-!
# Faithful refinements

A refinement is faithful when what is built from an accepted base value projects back to it. All
laws of a refinement follow from this one (`Refinement.lawful_iff_faithful`), because the
constructors let nothing else through: a value that they can make is what the builder makes of an
accepted base value, however many defaults it has passed through (`Refinement.constructible_iff`).
So

* what has been **inserted** projects to the base value, or to the projection of the default,
* a constructible value is **built again** from its projection,
* and the **checks** accept every sample of base values, and every sample of constructible values.

Some faithful refinements compute with 32-bit words, where a product that is too large is cut off.
Whether such a refinement is faithful is a question of arithmetic: an even number is half of itself
**doubled**, a percentage comes back from basis points by a **quotient**, and in both cases the
product must be the exact one. It is, on the accepted base values and nowhere else in general; an
odd number is stored as it is, and only its predicate computes. Exactness is stated on integers: the
machine word of a product stands for the product of what the factors stand for.

Values of a faithful refinement that are compared by the inherited comparison answer as the base
values do from which they were inserted, whichever relation that is
(`Refinement.inserted_compare_as_base`). The constructors differ only in what they put in the place
of a refused base value: **nothing**, so that two refused base values are the same to each other and
to nothing else; a **fault**, so that there are values to compare only where both base values are
accepted; or a **default**, which then stands for its own projection.
-/

namespace Sameness

namespace Refinement

open Truth (isTrue)

variable {σ β τ : Type} [Truth τ] {R : Refinement σ β} {x : β} {u : σ}

/-- **Constructible values** are what the builder makes of accepted base values. -/
theorem constructible_iff : R.Constructible u ↔ ∃ x, R.accepts x = true ∧ R.build x = u := by
  constructor
  · intro h
    induction h with
    | first hc =>
      obtain ⟨hacc, rfl⟩ := hc.eq_build
      exact ⟨_, hacc, rfl⟩
    | @orElse d x _ ih =>
      rcases hacc : R.accepts x with _ | _
      · -- the default has come back, and it was made of some other base value
        rw [ofBaseD_of_not_accepts hacc]
        exact ih
      · exact ⟨x, hacc, (ofBaseD_of_accepts hacc d).symm⟩
  · rintro ⟨x, hacc, rfl⟩
    exact .first (.demand (ofBase_of_accepts hacc))

namespace Faithful

/-! ### Inserted values -/

/-- With a default, the base value comes back if it is accepted, and otherwise the projection of the
default. -/
theorem toBase_ofBaseD (h : R.Faithful) (d : σ) (x : β) :
    R.toBase (R.ofBaseD d x) = if R.accepts x then x else R.toBase d := by
  rcases hx : R.accepts x with _ | _
  · rw [ofBaseD_of_not_accepts hx]
    rfl
  · rw [ofBaseD_of_accepts hx]
    exact h x hx

/-- **Constructible values are built again** from their projections. -/
theorem build_toBase (h : R.Faithful) (hu : R.Constructible u) :
    R.accepts (R.toBase u) = true ∧ R.build (R.toBase u) = u := by
  obtain ⟨x, hx, rfl⟩ := constructible_iff.mp hu
  rw [h x hx]
  exact ⟨hx, rfl⟩

/-! ### Samples -/

variable {us : List σ} {same : σ → σ → τ}

/-- A sample of base values shows no failure, to any reflexive comparison. -/
theorem insertsCorrectly (h : R.Faithful) {c : Comparison β} (hc : ∀ x, c x x = true)
    (xs : List β) :
    R.insertsCorrectly c xs = true := by
  rw [insertsCorrectly_eq_true_iff]
  intro x _ hx
  rw [h x hx]
  exact hc x

/-- Every value of a sample of constructible values is built again, to any reflexive sameness. -/
theorem rebuilt (h : R.Faithful) (hsame : ∀ u, isTrue (same u u) = true)
    (hus : ∀ u ∈ us, R.Constructible u) :
    ∀ u ∈ us, R.accepts (R.toBase u) = true ∧ isTrue (same (R.build (R.toBase u)) u) = true := by
  intro u hu
  obtain ⟨hacc, hbuild⟩ := h.build_toBase (hus u hu)
  rw [hbuild]
  exact ⟨hacc, hsame u⟩

theorem projectsInjectively (h : R.Faithful) {c : Comparison β} (hc : c.Decides)
    (hsame : ∀ u, isTrue (same u u) = true) (hus : ∀ u ∈ us, R.Constructible u) :
    R.projectsInjectively c same us = true := by
  rw [projectsInjectively_eq_true_iff]
  intro u hu v hv hproj
  obtain ⟨-, hbu⟩ := h.build_toBase (hus u hu)
  obtain ⟨-, hbv⟩ := h.build_toBase (hus v hv)
  -- one and the same projection builds both
  have huv : u = v := by rw [← hbu, (hc _ _).mp hproj, hbv]
  rw [huv]
  exact hsame v

end Faithful

/-! ### Lawful refinements -/

/-- The refinement is **lawful**: an accepted base value is inserted without a fault and comes back,
and the checks accept every sample, whether of base values or of values that the constructors can
make. Both the base and the refined values are compared by identity. -/
structure Lawful [DecidableEq σ] [DecidableEq β] (R : Refinement σ β) : Prop where
  /-- An accepted base value is inserted, and projects back. -/
  toBase_ofBase : ∀ x, R.accepts x = true → ∃ u, R.ofBase x = .ok u ∧ R.toBase u = x
  /-- Base values are inserted exactly when they are accepted, and project back. -/
  insertsCorrectly : ∀ xs, R.insertsCorrectly Comparison.identity xs = true
  /-- Constructible values are built again from their projections. -/
  reinserts? : ∀ us, (∀ u ∈ us, R.Constructible u) →
    R.reinserts? (Comparison.identity : Comparison σ) us = true
  /-- Constructible values with the same projection are identical. -/
  projectsInjectively : ∀ us, (∀ u ∈ us, R.Constructible u) →
    R.projectsInjectively Comparison.identity (Comparison.identity : Comparison σ) us = true
  /-- Constructible values are built again from their projections, without a fault. -/
  reinserts : ∀ us, (∀ u ∈ us, R.Constructible u) →
    R.reinserts (Comparison.identity : Comparison σ) us = .ok true

/-- **One law for all.** A refinement is lawful exactly when it is faithful. -/
theorem lawful_iff_faithful [DecidableEq σ] [DecidableEq β] : R.Lawful ↔ R.Faithful := by
  constructor
  · intro h x hx
    obtain ⟨u, hu, hback⟩ := h.toBase_ofBase x hx
    obtain ⟨-, rfl⟩ := ofBase_eq_ok_iff.mp hu
    exact hback
  · intro h
    have hbase : ∀ x, (Comparison.identity : Comparison β) x x = true :=
      Comparison.Decides.identity.refl
    have hsame : ∀ u, isTrue ((Comparison.identity : Comparison σ) u u) = true :=
      Comparison.Decides.identity.refl
    exact {
      toBase_ofBase := fun x hx => ⟨R.build x, ofBase_of_accepts hx, h x hx⟩
      insertsCorrectly := fun xs => h.insertsCorrectly hbase xs
      reinserts? := fun us hus => reinserts?_eq_true_iff.mpr (h.rebuilt hsame hus)
      projectsInjectively := fun us hus => h.projectsInjectively .identity hsame hus
      reinserts := fun us hus => reinserts_eq_ok_true_iff.mpr (h.rebuilt hsame hus) }

end Refinement

/-! ### Even numbers by their halves -/

namespace EvenHalf

theorem accepts_iff {x : UInt32} : EvenHalf.refinement.accepts x = true ↔ x.toNat % 2 = 0 := by
  rw [refinement, beq_iff_eq, ← UInt32.toNat_inj, UInt32.toNat_mod]
  rfl

/-- The two halves of an accepted number make that number, so that the product is in range. -/
theorem half_build_mul_two {x : UInt32} (hx : EvenHalf.refinement.accepts x = true) :
    (EvenHalf.refinement.build x).half.toNat * 2 = x.toNat := by
  have heven : x.toNat % 2 = 0 := accepts_iff.mp hx
  have hhalf : (EvenHalf.refinement.build x).half.toNat = x.toNat / 2 := UInt32.toNat_div x 2
  omega

/-- A product in range is exact. -/
theorem toNat_toBase {u : EvenHalf} (h : u.half.toNat * 2 < 2 ^ 32) :
    (EvenHalf.refinement.toBase u).toNat = u.half.toNat * 2 := by
  have hmul : (u.half * 2).toNat = u.half.toNat * 2 % 2 ^ 32 := UInt32.toNat_mul u.half 2
  rw [Nat.mod_eq_of_lt h] at hmul
  exact hmul

/-- The halves of the numbers that can be constructed can be doubled in range. -/
theorem half_mul_two_lt {u : EvenHalf} (hu : EvenHalf.refinement.Constructible u) :
    u.half.toNat * 2 < 2 ^ 32 := by
  obtain ⟨x, hx, rfl⟩ := Refinement.constructible_iff.mp hu
  rw [half_build_mul_two hx]
  exact x.toNat_lt

theorem faithful : EvenHalf.refinement.Faithful := by
  intro x hx
  have hexact : (EvenHalf.refinement.build x).half.toNat * 2 = x.toNat := half_build_mul_two hx
  have hrange : (EvenHalf.refinement.build x).half.toNat * 2 < 2 ^ 32 := hexact ▸ x.toNat_lt
  rw [← UInt32.toNat_inj, toNat_toBase hrange, hexact]

end EvenHalf

/-! ### Percentages in basis points -/

namespace Percent

theorem accepts_iff {x : Int32} :
    Percent.refinement.accepts x = true ↔ 0 ≤ x.toInt ∧ x.toInt ≤ 100 := by
  rw [refinement, Bool.and_eq_true, decide_eq_true_iff, decide_eq_true_iff,
    Int32.le_iff_toInt_le, Int32.le_iff_toInt_le]
  rfl

/-- The basis points of an accepted number are the exact product. -/
theorem toInt_basisPoints {x : Int32} (hx : Percent.refinement.accepts x = true) :
    (Percent.refinement.build x).basisPoints.toInt = x.toInt * 100 := by
  obtain ⟨hlo, hhi⟩ := accepts_iff.mp hx
  have hmul : (x * 100).toInt = (x.toInt * 100).bmod (2 ^ 32) := Int32.toInt_mul x 100
  rw [Int.bmod_eq_of_le (by omega) (by omega)] at hmul
  exact hmul

/-- The quotient is truncated, and always in range. -/
theorem toInt_toBase (p : Percent) :
    (Percent.refinement.toBase p).toInt = p.basisPoints.toInt.tdiv 100 :=
  Int32.toInt_div_of_ne_right p.basisPoints 100 (by decide)

theorem faithful : Percent.refinement.Faithful := by
  intro x hx
  rw [← Int32.toInt_inj, toInt_toBase, toInt_basisPoints hx]
  exact Int.mul_tdiv_cancel x.toInt (by decide)

end Percent

/-! ### Odd numbers -/

namespace Odd

/-- The remainder of an accepted number is one with either sign. -/
theorem accepts_iff {x : Int32} :
    Odd.refinement.accepts x = true ↔ x.toInt.tmod 2 = 1 ∨ x.toInt.tmod 2 = -1 := by
  have hmod : (x % 2).toInt = x.toInt.tmod 2 := Int32.toInt_mod x 2
  have hcases : x.toInt.tmod 2 = -1 ∨ x.toInt.tmod 2 = 0 ∨ x.toInt.tmod 2 = 1 :=
    Int.tmod_two_eq x.toInt
  have hzero : x % 2 = 0 ↔ x.toInt.tmod 2 = 0 := by
    rw [← hmod, ← Int32.toInt_inj]
    rfl
  rw [refinement, bne_iff_ne, ne_eq, hzero]
  omega

theorem faithful : Odd.refinement.Faithful := fun _ _ => rfl

end Odd

/-! ### Laws in machine words -/

namespace Refinement

/-- **The representations are lawful in machine words.** Even numbers stored as halves, percentages
stored in basis points and odd numbers stored as they are make lawful refinements of the 32-bit
words. To project an even number that can be constructed, its half is doubled within 32 bits, and to
build an accepted percentage, it is multiplied within 32 bits; both products are exact. The odd
numbers are those whose truncated remainder by two is one, with either sign. -/
theorem lawful_in_machine_words :
    (EvenHalf.refinement.Lawful ∧
        ∀ u, EvenHalf.refinement.Constructible u →
          u.half.toNat * 2 < 2 ^ 32 ∧
            (EvenHalf.refinement.toBase u).toNat = u.half.toNat * 2) ∧
      (Percent.refinement.Lawful ∧
        ∀ x, Percent.refinement.accepts x = true →
          -2 ^ 31 ≤ x.toInt * 100 ∧ x.toInt * 100 < 2 ^ 31 ∧
            (Percent.refinement.build x).basisPoints.toInt = x.toInt * 100) ∧
      Odd.refinement.Lawful ∧
        ∀ x, Odd.refinement.accepts x = true ↔ x.toInt.tmod 2 = 1 ∨ x.toInt.tmod 2 = -1 := by
  refine ⟨⟨lawful_iff_faithful.mpr EvenHalf.faithful, fun u hu => ?_⟩,
    ⟨lawful_iff_faithful.mpr Percent.faithful, fun x hx => ?_⟩,
    lawful_iff_faithful.mpr Odd.faithful, fun x => Odd.accepts_iff⟩
  · have hrange : u.half.toNat * 2 < 2 ^ 32 := EvenHalf.half_mul_two_lt hu
    exact ⟨hrange, EvenHalf.toNat_toBase hrange⟩
  · obtain ⟨hlo, hhi⟩ := Percent.accepts_iff.mp hx
    exact ⟨by omega, by omega, Percent.toInt_basisPoints hx⟩

/-- The largest even number, and zero, which an odd number has fallen back on. -/
def evenExtremes : List EvenHalf := [⟨2147483647⟩, EvenHalf.refinement.ofBaseD ⟨0⟩ 7]

/-- The largest even number is built again from its half without a loss, a full percentage has ten
thousand basis points, and a negative odd number is odd. -/
theorem lawful_in_machine_words_extremes :
    (∀ u ∈ evenExtremes, EvenHalf.refinement.Constructible u) ∧
      EvenHalf.refinement.reinserts (Comparison.identity : Comparison EvenHalf) evenExtremes =
        .ok true ∧
      (EvenHalf.refinement.toBase ⟨2147483647⟩).toNat = 4294967294 ∧
      Percent.refinement.accepts 100 = true ∧
      (Percent.refinement.build 100).basisPoints.toInt = 10000 ∧
      Odd.refinement.accepts (-7) = true ∧
      ∃ u, Odd.refinement.ofBase (-7) = .ok u ∧ Odd.refinement.toBase u = -7 := by
  obtain ⟨⟨heven, hdouble⟩, ⟨-, hpoints⟩, hodd, hsign⟩ := lawful_in_machine_words
  have hmax : EvenHalf.refinement.Constructible ⟨2147483647⟩ :=
    constructible_iff.mpr ⟨4294967294, by decide, by decide⟩
  have hzero : EvenHalf.refinement.Constructible ⟨0⟩ :=
    constructible_iff.mpr ⟨0, by decide, by decide⟩
  have hall : ∀ u ∈ evenExtremes, EvenHalf.refinement.Constructible u := by
    intro u hu
    simp only [evenExtremes, List.mem_cons, List.not_mem_nil, or_false] at hu
    rcases hu with rfl | rfl
    · exact hmax
    · exact .orElse 7 hzero
  have hfull : Percent.refinement.accepts 100 = true := by decide
  have hneg : Odd.refinement.accepts (-7) = true := (hsign (-7)).mpr (.inr (by decide))
  exact ⟨hall, heven.reinserts _ hall, (hdouble _ hmax).2.trans (by decide), hfull,
    (hpoints 100 hfull).2.2.trans (by decide), hneg, hodd.toBase_ofBase _ hneg⟩

/-- The builder itself looks at nothing, and a number far above 100 is cut off in it. -/
example : Percent.refinement.toBase (Percent.refinement.build 30000000) = -12949672 := by decide

/-! ### How inserted values compare -/

variable {σ β : Type} {R : Refinement σ β} {x y : β}

/-- What the builder makes of accepted base values compares as they do. -/
theorem Faithful.inherit_build (h : R.Faithful) (c : Comparison β) (hx : R.accepts x = true)
    (hy : R.accepts y = true) : R.inherit c (R.build x) (R.build y) = c x y := by
  rw [inherit_apply, h x hx, h y hy]

/-- **Inserted if accepted**: refused base values collapse, and accepted ones are told apart as
before. -/
theorem Faithful.option_ofBase?_eq_true_iff (h : R.Faithful) (c : Comparison β) :
    (R.inherit c).option (R.ofBase? x) (R.ofBase? y) = true ↔
      (R.accepts x = false ∧ R.accepts y = false) ∨
        (R.accepts x = true ∧ R.accepts y = true ∧ c x y = true) := by
  rcases hx : R.accepts x with _ | _ <;> rcases hy : R.accepts y with _ | _
  · rw [ofBase?_of_not_accepts hx, ofBase?_of_not_accepts hy]
    simp
  · rw [ofBase?_of_not_accepts hx, ofBase?_of_accepts hy]
    simp
  · rw [ofBase?_of_accepts hx, ofBase?_of_not_accepts hy]
    simp
  · rw [ofBase?_of_accepts hx, ofBase?_of_accepts hy, Comparison.option_some_some,
      h.inherit_build c hx hy]
    simp

/-- **Inserted or defaulted**: a refused base value stands for the projection of the default. -/
theorem Faithful.inherit_ofBaseD (h : R.Faithful) (c : Comparison β) (d : σ) (x y : β) :
    R.inherit c (R.ofBaseD d x) (R.ofBaseD d y) =
      c (if R.accepts x then x else R.toBase d) (if R.accepts y then y else R.toBase d) := by
  rw [inherit_apply, h.toBase_ofBaseD, h.toBase_ofBaseD]

/-- **Inserted values compare as their base values.** Let a refinement be faithful and inherit any
comparison from its base. The values inserted for two base values, where there may be none, are the
same exactly when both base values are refused, or both are accepted and are the same. If both are
accepted then the constructor that may fault has a value for each of them, and the two compare as
the base values do. With a default, a refused base value is compared as the projection of the
default. -/
theorem inserted_compare_as_base (h : R.Faithful) (c : Comparison β) (x y : β) :
    ((R.inherit c).option (R.ofBase? x) (R.ofBase? y) = true ↔
        (R.accepts x = false ∧ R.accepts y = false) ∨
          (R.accepts x = true ∧ R.accepts y = true ∧ c x y = true)) ∧
      (R.accepts x = true → R.accepts y = true →
        ∃ u v, R.ofBase x = .ok u ∧ R.ofBase y = .ok v ∧ R.inherit c u v = c x y) ∧
      ∀ d, R.inherit c (R.ofBaseD d x) (R.ofBaseD d y) =
        c (if R.accepts x then x else R.toBase d) (if R.accepts y then y else R.toBase d) := by
  refine ⟨h.option_ofBase?_eq_true_iff c, fun hx hy => ?_, fun d => h.inherit_ofBaseD c d x y⟩
  exact ⟨R.build x, R.build y, ofBase_of_accepts hx, ofBase_of_accepts hy, h.inherit_build c hx hy⟩

/-- The order of the numbers as a comparison. -/
def atMost : Comparison Int32 := AtMost.compare.along AtMost.mk

/-- Percentages that inherit the order of the numbers: 40 is at most 55, and not the other way
round. Numbers that are no percentages are the same when nothing is inserted for them. With a
default of 7, which then stands for 101, the answer for 101 and 40 is that 7 is at most 40. -/
theorem inserted_compare_as_base_percent :
    Percent.refinement.Faithful ∧ Percent.refinement.accepts 40 = true ∧
      Percent.refinement.accepts 55 = true ∧
      (∃ u v, Percent.refinement.ofBase 40 = .ok u ∧ Percent.refinement.ofBase 55 = .ok v ∧
        Percent.refinement.inherit atMost u v = true) ∧
      (Percent.refinement.inherit atMost).option (Percent.refinement.ofBase? 55)
        (Percent.refinement.ofBase? 40) ≠ true ∧
      (Percent.refinement.inherit atMost).option (Percent.refinement.ofBase? 101)
        (Percent.refinement.ofBase? (-5)) = true ∧
      Percent.refinement.inherit atMost (Percent.refinement.ofBaseD ⟨700⟩ 101)
        (Percent.refinement.ofBaseD ⟨700⟩ 40) = true := by
  have h : Percent.refinement.Faithful := Percent.faithful
  have h40 : Percent.refinement.accepts 40 = true := by decide
  have h55 : Percent.refinement.accepts 55 = true := by decide
  obtain ⟨-, hboth, -⟩ := inserted_compare_as_base h atMost 40 55
  obtain ⟨hswapped, -, -⟩ := inserted_compare_as_base h atMost 55 40
  obtain ⟨hrefused, -, -⟩ := inserted_compare_as_base h atMost 101 (-5)
  obtain ⟨-, -, hdefault⟩ := inserted_compare_as_base h atMost 101 40
  refine ⟨h, h40, h55, hboth h40 h55, fun hle => ?_, hrefused.mpr (.inl (by decide)),
    (hdefault ⟨700⟩).trans (by decide)⟩
  rcases hswapped.mp hle with ⟨hrefuse, -⟩ | ⟨-, -, horder⟩
  · exact absurd hrefuse (by decide)
  · exact absurd horder (by decide)

/-- Without faithfulness accepted base values can collapse as well: 150 and 200 are both cut off. -/
example : (Capped.refinement.inherit Comparison.identity).option (Capped.refinement.ofBase? 150)
    (Capped.refinement.ofBase? 200) = true := by decide

end Refinement

end Sameness
