import Sameness.Proofs.Compound
import Sameness.Proofs.Sample.Cancellation
import Sameness.Sample.Check
import Sameness.Specimen

/-!
# Laws of refinements on samples

A refinement is given by any predicate, projection and builder, and `insertsCorrectly` looks at base
values only. When it accepts a sample and the comparison of the base decides identity, the accepted
base values of the sample survive building and projecting unchanged
(`Refinement.toBase_build_of_insertsCorrectly`). The laws on refined values follow for the values
constructed from the sample, against any reflexive notion of sameness: what projects to the same
base value was built from the same base value, and what is built again from its projection was built
from that projection in the first place.

The constructors answer a base value that is not accepted each in its own way, and the checks that
go through them inherit the answer. Two laws of a refinement can be checked in two forms each.

* **Built again from the projection.** `reinserts?` goes through the constructor that may have no
  value, `reinserts` through the one that faults. They accept the same samples. On any other sample
  both end at the first value that is not built again (`Refinement.unrebuilt?`), the former with
  `false` and the latter with a fault if it is the projection that is refused.
* **Inserted, and projected back.** `insertsCorrectly` has nothing to compare for a refused base
  value, while `insertsCorrectlyD` falls back on a default and compares the projection of the
  default with itself. The two differ only if that comparison fails.

A refinement is also a map, its projection to the base, with the constructors going back. Each law
on refined values is a general law of that map, whatever the notion of sameness that stands for the
truth: to project injectively is to be injective, and to be built again from the projection is to
cancel, through `ofBase?` as a partial inverse or through `ofBase` as one that may fault. Two things
follow for the comparison that refined values inherit from their base. Against itself there is
nothing to find out about injectivity, since it looks at projections only. Against another notion of
sameness, it is right on a sample exactly when the projection is injective there, and being built
again is a reason for both.
-/

namespace Sameness.Refinement

open Truth (isTrue)

variable {σ β τ : Type} [Truth τ] {R : Refinement σ β} {c : Comparison β} {xs : List β}

/-! ### Insertion as the master law -/

/-- Constructing from the accepted values of a sample never faults, and the builder makes the
constructed values. -/
theorem mapM_ofBase_filter (R : Refinement σ β) (xs : List β) :
    (xs.filter R.accepts).mapM R.ofBase = .ok ((xs.filter R.accepts).map R.build) := by
  induction xs with
  | nil => rfl
  | cons x xs ih =>
    by_cases h : R.accepts x = true
    · rw [List.filter_cons_of_pos h, List.mapM_cons, ofBase_of_accepts h, ih]
      rfl
    · rw [List.filter_cons_of_neg h]
      exact ih

/-- On a sample that inserts correctly, projecting undoes building where the predicate holds. -/
theorem toBase_build_of_insertsCorrectly (hc : c.Decides)
    (h : R.insertsCorrectly c xs = true) {x : β} (hx : x ∈ xs.filter R.accepts) :
    R.toBase (R.build x) = x := by
  obtain ⟨hmem, hacc⟩ := List.mem_filter.mp hx
  exact (hc _ _).mp (insertsCorrectly_eq_true_iff.mp h x hmem hacc)

/-- **The master law.** If a sample of base values inserts correctly and the comparison of the base
decides identity, then the values constructed from the accepted part of the sample project
injectively, and each of them is built again from its own projection, without a fault. No law of
the refinement is assumed, and of the notion of sameness only that it is reflexive. -/
theorem laws_of_insertsCorrectly (hc : c.Decides) {same : σ → σ → τ}
    (hsame : ∀ u, isTrue (same u u) = true) (h : R.insertsCorrectly c xs = true) :
    ∃ us, (xs.filter R.accepts).mapM R.ofBase = .ok us ∧
      R.projectsInjectively c same us = true ∧
      R.reinserts? same us = true ∧
      R.reinserts same us = .ok true := by
  refine ⟨_, R.mapM_ofBase_filter xs, ?_⟩
  -- each constructed value is `R.build x` for some `x` of the sample, and projects to that `x`
  have hback : ∀ x ∈ xs.filter R.accepts, R.toBase (R.build x) = x := fun _ hx =>
    toBase_build_of_insertsCorrectly hc h hx
  have hrebuild : ∀ u ∈ (xs.filter R.accepts).map R.build,
      R.accepts (R.toBase u) = true ∧ isTrue (same (R.build (R.toBase u)) u) = true := by
    intro u hu
    obtain ⟨x, hx, rfl⟩ := List.mem_map.mp hu
    rw [hback x hx]
    exact ⟨(List.mem_filter.mp hx).2, hsame _⟩
  refine ⟨?_, reinserts?_eq_true_iff.mpr hrebuild, reinserts_eq_ok_true_iff.mpr hrebuild⟩
  rw [projectsInjectively_eq_true_iff]
  intro u hu v hv huv
  obtain ⟨x, hx, rfl⟩ := List.mem_map.mp hu
  obtain ⟨y, hy, rfl⟩ := List.mem_map.mp hv
  have hxy : x = y := by rw [← hback x hx, ← hback y hy, (hc _ _).mp huv]
  rw [hxy]
  exact hsame _

/-- A lawless refinement passes on a sample that does not show its flaw: the builder cuts off
numbers above 100 only, and the negative number is refused. -/
theorem laws_of_insertsCorrectly_capped :
    (Comparison.identity : Comparison Int32).Decides ∧
      (∀ u, (Comparison.identity : Comparison Capped) u u = true) ∧
      Capped.refinement.insertsCorrectly Comparison.identity [5, -3, 100] = true ∧
      ∃ us, ([5, -3, 100].filter Capped.refinement.accepts).mapM Capped.refinement.ofBase =
          .ok us ∧
        Capped.refinement.projectsInjectively Comparison.identity Comparison.identity us =
          true ∧
        Capped.refinement.reinserts? Comparison.identity us = true ∧
        Capped.refinement.reinserts Comparison.identity us = .ok true :=
  have hsame : ∀ u, (Comparison.identity : Comparison Capped) u u = true := fun _ =>
    Comparison.identity_eq_true_iff.mpr rfl
  have hins : Capped.refinement.insertsCorrectly Comparison.identity [5, -3, 100] = true := by
    decide
  ⟨.identity, hsame, hins, laws_of_insertsCorrectly .identity hsame hins⟩

/-- The flaw is found out by a base value that shows it. -/
example : Capped.refinement.insertsCorrectly Comparison.identity [5, 101] = false := by decide

/-! ### Values that are not built again -/

variable {same : σ → σ → τ} {u : σ}

/-- Whether a refined value is **built again** from its projection: the projection is accepted, and
what is built from it is the same as the value. -/
def rebuilds (R : Refinement σ β) (same : σ → σ → τ) (u : σ) : Bool :=
  R.accepts (R.toBase u) && isTrue (same (R.build (R.toBase u)) u)

/-- The first value of a sample that is not built again from its projection, if there is one. -/
def unrebuilt? (R : Refinement σ β) (same : σ → σ → τ) (us : List σ) : Option σ :=
  us.find? fun u => !R.rebuilds same u

/-- The end of the check that may fault, at a value that is not built again: the fault if the
projection is refused, and a rejection otherwise. -/
def failureAt (R : Refinement σ β) (u : σ) : Except Fault Bool :=
  if R.accepts (R.toBase u) then .ok false else .error .predicateFails

theorem failureAt_ne_ok_true (R : Refinement σ β) (u : σ) : R.failureAt u ≠ .ok true := by
  rw [failureAt]
  split <;> simp

/-! ### Round by round -/

theorem reinserts?_cons (R : Refinement σ β) (same : σ → σ → τ) (u : σ) (us : List σ) :
    R.reinserts? same (u :: us) = (R.rebuilds same u && R.reinserts? same us) := by
  rw [reinserts?, List.all_cons, rebuilds]
  rcases h : R.accepts (R.toBase u) with _ | _
  · rw [ofBase?_of_not_accepts h]
    rfl
  · rw [ofBase?_of_accepts h]
    rfl

theorem reinserts_cons_of_rebuilds (h : R.rebuilds same u = true) (us : List σ) :
    R.reinserts same (u :: us) = R.reinserts same us := by
  obtain ⟨hacc, hsame⟩ := Bool.and_eq_true_iff.mp h
  rw [reinserts, ofBase_of_accepts hacc]
  exact if_pos hsame

theorem reinserts_cons_of_not_rebuilds (h : R.rebuilds same u = false) (us : List σ) :
    R.reinserts same (u :: us) = R.failureAt u := by
  rw [reinserts, failureAt]
  rcases hacc : R.accepts (R.toBase u) with _ | _
  · rw [ofBase_of_not_accepts hacc]
    rfl
  · -- the projection is accepted, so it is sameness that fails
    have hsame : isTrue (same (R.build (R.toBase u)) u) = false := by
      rwa [rebuilds, hacc, Bool.true_and] at h
    rw [ofBase_of_accepts hacc]
    exact if_neg (Bool.eq_false_iff.mp hsame)

/-- **The whole check** that has a verdict for every sample looks for a value that is not built
again. -/
theorem reinserts?_eq_isNone (R : Refinement σ β) (same : σ → σ → τ) (us : List σ) :
    R.reinserts? same us = (R.unrebuilt? same us).isNone := by
  induction us with
  | nil => rfl
  | cons u us ih =>
    rw [reinserts?_cons, ih, unrebuilt?, unrebuilt?, List.find?_cons]
    cases R.rebuilds same u <;> rfl

/-- **The whole check** that may fault ends at the first value that is not built again. -/
theorem reinserts_eq_elim (R : Refinement σ β) (same : σ → σ → τ) (us : List σ) :
    R.reinserts same us = (R.unrebuilt? same us).elim (.ok true) R.failureAt := by
  induction us with
  | nil => rfl
  | cons u us ih =>
    rw [unrebuilt?, List.find?_cons]
    rcases h : R.rebuilds same u with _ | _
    · exact reinserts_cons_of_not_rebuilds h us
    · exact (reinserts_cons_of_rebuilds h us).trans ih

/-- **The two checks differ only in how they fail.** They accept the same samples, those in which
every value is built again from its projection. On any other sample there is a first value that is
not, and the one check rejects the sample; the other tells that the projection of that value is
refused, if it is, and rejects the sample if it is not. What stands behind that value in the sample
does not matter. -/
theorem reinserts_ends_at_first_unrebuilt (R : Refinement σ β) (same : σ → σ → τ) (us : List σ) :
    (R.reinserts? same us = true ↔ R.reinserts same us = .ok true) ∧
      (R.reinserts? same us = true ↔ R.unrebuilt? same us = none) ∧
      ∀ u, R.unrebuilt? same us = some u →
        R.reinserts? same us = false ∧
        (R.accepts (R.toBase u) = false → (R.reinserts same us).mapError Fault.message =
          .error "sub: value does not satisfy the subtype predicate") ∧
        (R.accepts (R.toBase u) = true → R.reinserts same us = .ok false) := by
  rw [reinserts?_eq_isNone, reinserts_eq_elim]
  rcases R.unrebuilt? same us with _ | u
  · refine ⟨iff_of_true rfl rfl, iff_of_true rfl rfl, fun v hv => ?_⟩
    cases hv
  · -- neither check accepts here, whatever the second one ends with
    have hfails : R.failureAt u ≠ .ok true := R.failureAt_ne_ok_true u
    refine ⟨iff_of_false Bool.false_ne_true hfails,
      iff_of_false Bool.false_ne_true (Option.some_ne_none u), fun v hv => ?_⟩
    obtain rfl := Option.some.inj hv
    refine ⟨rfl, fun hrefused => ?_, fun hacc => ?_⟩
    · rw [Option.elim_some, failureAt, hrefused]
      rfl
    · rw [Option.elim_some, failureAt, hacc]
      rfl

/-- The number 13 projects to its last digit, which builds 3 again, and the negative number is not
accepted as a digit. Which of the two comes first decides how the check fails. -/
theorem reinserts_ends_at_first_unrebuilt_lastDigit :
    LastDigit.refinement.unrebuilt? (Comparison.identity : Comparison LastDigit)
        [⟨5⟩, ⟨13⟩, ⟨-3⟩] = some ⟨13⟩ ∧
      LastDigit.refinement.reinserts (Comparison.identity : Comparison LastDigit)
        [⟨5⟩, ⟨13⟩, ⟨-3⟩] = .ok false ∧
      LastDigit.refinement.unrebuilt? (Comparison.identity : Comparison LastDigit)
        [⟨5⟩, ⟨-3⟩, ⟨13⟩] = some ⟨-3⟩ ∧
      LastDigit.refinement.reinserts? (Comparison.identity : Comparison LastDigit)
        [⟨5⟩, ⟨-3⟩, ⟨13⟩] = false ∧
      (LastDigit.refinement.reinserts (Comparison.identity : Comparison LastDigit)
        [⟨5⟩, ⟨-3⟩, ⟨13⟩]).mapError Fault.message =
          .error "sub: value does not satisfy the subtype predicate" := by
  have hdigit : LastDigit.refinement.unrebuilt? (Comparison.identity : Comparison LastDigit)
      [⟨5⟩, ⟨13⟩, ⟨-3⟩] = some ⟨13⟩ := by decide
  have hnegative : LastDigit.refinement.unrebuilt? (Comparison.identity : Comparison LastDigit)
      [⟨5⟩, ⟨-3⟩, ⟨13⟩] = some ⟨-3⟩ := by decide
  obtain ⟨-, -, hfirst⟩ := reinserts_ends_at_first_unrebuilt LastDigit.refinement
    (Comparison.identity : Comparison LastDigit) [⟨5⟩, ⟨13⟩, ⟨-3⟩]
  obtain ⟨-, -, hfirst'⟩ := reinserts_ends_at_first_unrebuilt LastDigit.refinement
    (Comparison.identity : Comparison LastDigit) [⟨5⟩, ⟨-3⟩, ⟨13⟩]
  obtain ⟨-, -, hreject⟩ := hfirst _ hdigit
  obtain ⟨hverdict, hfault, -⟩ := hfirst' _ hnegative
  exact ⟨hdigit, hreject (by decide), hnegative, hverdict, hfault (by decide)⟩

/-! ### Defaults -/

/-- Insertion with a default is right where insertion is, as long as the default is not looked at or
its projection is the same as itself. -/
theorem insertsCorrectlyD_iff {c : Comparison β} {xs : List β} {default : σ} :
    R.insertsCorrectlyD c default xs = true ↔
      R.insertsCorrectly c xs = true ∧
        ((∀ x ∈ xs, R.accepts x = true) ∨ c.selfSame (R.toBase default) = true) := by
  rw [insertsCorrectlyD_eq_true_iff, insertsCorrectly_eq_true_iff]
  constructor
  · intro h
    refine ⟨fun x hx => (h x hx).1, ?_⟩
    by_cases hself : c.selfSame (R.toBase default) = true
    · exact .inr hself
    · -- a refused base value would have had the default looked at
      refine .inl fun x hx => ?_
      rcases hacc : R.accepts x with _ | _
      · exact absurd ((h x hx).2 hacc) hself
      · rfl
  · rintro ⟨hins, hdefault⟩ x hx
    refine ⟨hins x hx, fun hrefused => ?_⟩
    rcases hdefault with hall | hself
    · rw [hall x hx] at hrefused
      cases hrefused
    · exact hself

/-- **The two laws of insertion coincide, up to the default.** The check of insertion with a default
accepts a sample exactly when the check without one does and, unless every base value of the sample
is accepted, the projection of the default is the same as itself. Where every base value is the same
as itself, the two checks give the same verdict, whatever the default is. -/
theorem insertsCorrectlyD_agrees_with_insertsCorrectly (R : Refinement σ β) (c : Comparison β)
    (xs : List β) :
    (∀ default, R.insertsCorrectlyD c default xs = true ↔
        R.insertsCorrectly c xs = true ∧
          ((∀ x ∈ xs, R.accepts x = true) ∨ c.selfSame (R.toBase default) = true)) ∧
      ((∀ y, c.selfSame y = true) →
        ∀ default, R.insertsCorrectlyD c default xs = R.insertsCorrectly c xs) := by
  refine ⟨fun default => insertsCorrectlyD_iff, fun hrefl default => Bool.eq_iff_iff.mpr ?_⟩
  have hself : c.selfSame (R.toBase default) = true := hrefl (R.toBase default)
  exact insertsCorrectlyD_iff.trans (and_iff_left (.inr hself))

/-- The number 150 is cut off at 100 and the negative one is refused. The cut is found out by
identity, whatever the default. To a comparison that wants the left number to be the smaller one the
cut is right, but the default is not below itself and makes the check fail. -/
theorem insertsCorrectlyD_agrees_with_insertsCorrectly_capped :
    (∀ y, (Comparison.identity : Comparison Int32).selfSame y = true) ∧
      (∀ default, Capped.refinement.insertsCorrectlyD Comparison.identity default [150, -1] =
        false) ∧
      Capped.refinement.insertsCorrectly (fun x y => decide (x < y)) [150, -1] = true ∧
      ∀ default, Capped.refinement.insertsCorrectlyD (fun x y => decide (x < y)) default
        [150, -1] ≠ true := by
  have hrefl : ∀ y, (Comparison.identity : Comparison Int32).selfSame y = true := fun _ =>
    Comparison.identity_eq_true_iff.mpr rfl
  obtain ⟨-, hagree⟩ := insertsCorrectlyD_agrees_with_insertsCorrectly Capped.refinement
    (Comparison.identity : Comparison Int32) [150, -1]
  obtain ⟨hiff, -⟩ := insertsCorrectlyD_agrees_with_insertsCorrectly Capped.refinement
    (fun x y : Int32 => decide (x < y)) [150, -1]
  refine ⟨hrefl, fun default => (hagree hrefl default).trans (by decide), by decide,
    fun default h => ?_⟩
  obtain ⟨-, hall | hself⟩ := (hiff default).mp h
  · exact absurd (hall (-1) (by decide)) (by decide)
  · exact Int32.lt_irrefl (of_decide_eq_true hself)

/-! ### Laws of the projection -/

theorem projectsInjectively_eq_injective (R : Refinement σ β) (c : Comparison β)
    (same : σ → σ → τ) (us : List σ) :
    R.projectsInjectively c same us =
      Sample.injective (Comparison.ofRelation same) c R.toBase us := rfl

theorem reinserts?_eq_cancelsPartly (R : Refinement σ β) (same : σ → σ → τ) (us : List σ) :
    R.reinserts? same us =
      Sample.cancelsPartly (Comparison.ofRelation same) R.toBase R.ofBase? us := by
  rw [reinserts?, Sample.cancelsPartly]
  congr 1
  funext u
  cases R.ofBase? (R.toBase u) <;> rfl

/-- The loop over the sample is the general one, which ends with the first value that is not built
again or with the first fault. -/
theorem reinserts_eq_cancelsM (R : Refinement σ β) (same : σ → σ → τ) (us : List σ) :
    R.reinserts same us =
      Sample.cancelsM (Comparison.ofRelation same) R.toBase R.ofBase us := by
  induction us with
  | nil => rfl
  | cons u us ih =>
    -- the general loop gets its verdict on `u` before it branches, and a fault passes through both
    rw [reinserts, ih, Sample.cancelsM, Sample.cancelsM, List.allM_cons, bind_assoc]
    rfl

/-! ### Against the inherited comparison -/

/-- The inherited comparison looks at nothing but projections. -/
theorem projectsInjectively_inherit (R : Refinement σ β) (c : Comparison β) (us : List σ) :
    R.projectsInjectively c (R.inherit c) us = true := by
  rw [projectsInjectively_eq_true_iff]
  exact fun _ _ _ _ h => h

/-- **The laws of a refinement are laws of its projection.** Against the comparison that refined
values inherit, to be built again is to cancel, by the constructor that may have no value and by the
one that may fault, and the latter check ends in the same fault or in none. To project injectively
is to be injective, and both checks of it accept every sample. Nothing is asked of the refinement or
of the comparison of its base. -/
theorem laws_eq_laws_of_toBase (R : Refinement σ β) (c : Comparison β) (us : List σ) :
    R.reinserts? (R.inherit c) us = Sample.cancelsPartly (R.inherit c) R.toBase R.ofBase? us ∧
      R.reinserts (R.inherit c) us = Sample.cancelsM (R.inherit c) R.toBase R.ofBase us ∧
      R.projectsInjectively c (R.inherit c) us = Sample.injective (R.inherit c) c R.toBase us ∧
      R.projectsInjectively c (R.inherit c) us = true ∧
      Sample.injective (R.inherit c) c R.toBase us = true := by
  have hinj : R.projectsInjectively c (R.inherit c) us =
      Sample.injective (R.inherit c) c R.toBase us :=
    projectsInjectively_eq_injective R c (R.inherit c) us
  have haccept : R.projectsInjectively c (R.inherit c) us = true :=
    projectsInjectively_inherit R c us
  exact ⟨reinserts?_eq_cancelsPartly R _ us, reinserts_eq_cancelsM R _ us, hinj, haccept,
    hinj ▸ haccept⟩

/-- Against identity the projection to the last digit is found out. -/
example : LastDigit.refinement.projectsInjectively Comparison.identity
    (Comparison.identity : Comparison LastDigit) [⟨3⟩, ⟨13⟩] = false := by decide

/-! ### Against another notion of sameness -/

/-- **The inherited comparison is right where the projection is injective.** Let the comparison of
the base decide identity, and let sameness of refined values be symmetric and transitive, and pass
to their projections. On any sample the inherited comparison then agrees with sameness exactly when
the projection is injective there. Both are the case when every value of the sample is the same as
what is built from its projection, which may lie outside the sample. -/
theorem decides_inherit_eq_projectsInjectively (hc : c.Decides) (same : σ → σ → τ)
    (hsame : (Comparison.ofRelation same).PartialEquivalence)
    (hbase : ∀ u v, isTrue (same u v) = true → c (R.toBase u) (R.toBase v) = true)
    (us : List σ) :
    Sample.decides (R.inherit c) us same = R.projectsInjectively c same us ∧
      (R.reinserts? same us = true →
        R.projectsInjectively c same us = true ∧
          Sample.decides (R.inherit c) us same = true) := by
  have hrespects : Sample.Respects (Comparison.ofRelation same) c R.toBase us :=
    fun u _ v _ => hbase u v
  have hagree : R.projectsInjectively c same us = Sample.decides (R.inherit c) us same :=
    Sample.injective_eq_decides_along hrespects
  refine ⟨hagree.symm, fun hreinserts => ?_⟩
  rw [reinserts?_eq_cancelsPartly] at hreinserts
  have hinj : R.projectsInjectively c same us = true :=
    Sample.injective_of_cancelsPartly hsame hc hreinserts
  exact ⟨hinj, hagree ▸ hinj⟩

/-- Records standing for the last digit of their key, and built without a note. -/
def keyDigit : Refinement Keyed Int32 where
  accepts k := 0 ≤ k
  toBase u := u.key % 10
  build k := ⟨k, 0⟩

/-- Records are the same when their keys are. Those with keys of one digit are built again, up to a
note, and so their digits tell them apart; 3 and 13 are not told apart. -/
theorem decides_inherit_eq_projectsInjectively_keyDigit :
    (Comparison.identity : Comparison Int32).Decides ∧
      Keyed.compare.PartialEquivalence ∧
      (∀ u v, Keyed.compare u v = true →
        Comparison.identity (keyDigit.toBase u) (keyDigit.toBase v) = true) ∧
      keyDigit.reinserts? Keyed.compare [⟨3, 2⟩, ⟨7, 0⟩, ⟨3, 5⟩] = true ∧
      Sample.decides (keyDigit.inherit Comparison.identity) [⟨3, 2⟩, ⟨7, 0⟩, ⟨3, 5⟩]
        Keyed.compare = true ∧
      Sample.decides (keyDigit.inherit Comparison.identity) [⟨3, 2⟩, ⟨13, 0⟩]
        Keyed.compare = false := by
  have hc : (Comparison.identity : Comparison Int32).Decides := .identity
  have hsame : Keyed.compare.PartialEquivalence := hc.partialEquivalence.along Keyed.key
  have hbase : ∀ u v, Keyed.compare u v = true →
      Comparison.identity (keyDigit.toBase u) (keyDigit.toBase v) = true := by
    intro u v huv
    have hkey : u.key = v.key := (hc _ _).mp huv
    exact (hc _ _).mpr (congrArg (· % 10) hkey)
  have hreinserts : keyDigit.reinserts? Keyed.compare [⟨3, 2⟩, ⟨7, 0⟩, ⟨3, 5⟩] = true := by decide
  obtain ⟨-, hright⟩ := decides_inherit_eq_projectsInjectively hc Keyed.compare hsame hbase
    [⟨3, 2⟩, ⟨7, 0⟩, ⟨3, 5⟩]
  obtain ⟨hagree, -⟩ := decides_inherit_eq_projectsInjectively hc Keyed.compare hsame hbase
    [⟨3, 2⟩, ⟨13, 0⟩]
  exact ⟨hc, hsame, hbase, hreinserts, (hright hreinserts).2, hagree.trans (by decide)⟩

end Sameness.Refinement
