import Mathlib.Data.List.Dedup
import Mathlib.Data.List.Perm.Subperm
import Sameness.Proofs.Compound
import Sameness.Proofs.Sample.Refinement
import Sameness.Sample.Check
import Sameness.Specimen

/-!
# What checks depend on

A check of a sample goes through it in one, two or three nested loops, and each of them adds one
value to those that are looked at together. What makes a check reject is therefore a handful of
values, and wherever they occur the check rejects again (`Sample.RefutedBy`). The number of loops
bounds their number (`RefutedBy.all`), and everything else follows from that alone:

* a sample is accepted exactly when its **small subsamples** are,
* the verdict depends on **which values occur**, not on their order or on how often they do,
* a subsample of an accepted sample is **accepted**, and a rejected sample has a small rejected
  part.

A relation may have results of any type that can be read as true or false, and two results that are
both true may differ. The checks never see the difference:

* **On a sample**, relations that agree on its pairs pass or fail the laws of an equivalence
  together (`Sample.reflexive_congr` and its companions). To decide a notion of identity is to agree
  with it, so a relation that decides identity passes all three.
* **As a comparison**, a relation is the same to every check, since the two agree everywhere.
-/

namespace Sameness.Sample

/-! ### Few values at a time -/

section Subsamples

variable {α : Type} {k l : Nat} {check : List α → Bool}

/-- A check is **refuted by `k` values** if, whenever it rejects a sample, at most `k` values of the
sample make it reject every sample in which they occur. -/
def RefutedBy (k : Nat) (check : List α → Bool) : Prop :=
  ∀ xs, check xs = false →
    ∃ ys, ys ⊆ xs ∧ ys.length ≤ k ∧ ∀ zs, ys ⊆ zs → check zs = false

namespace RefutedBy

/-! ### One value for each loop -/

/-- What does not look at the sample needs no value of it. -/
theorem const (b : Bool) : RefutedBy 0 fun _ : List α => b :=
  fun xs h => ⟨[], List.nil_subset xs, Nat.le_refl 0, fun _ _ => h⟩

/-- **A loop** over the sample adds the value at which it ends. -/
theorem all {body : α → List α → Bool} (h : ∀ x, RefutedBy k (body x)) :
    RefutedBy (k + 1) fun xs => xs.all fun x => body x xs := by
  intro xs hxs
  obtain ⟨x, hx, hbody⟩ := List.all_eq_false.mp hxs
  obtain ⟨ys, hys, hlen, hrefute⟩ := h x xs (Bool.eq_false_iff.mpr hbody)
  refine ⟨x :: ys, List.cons_subset.mpr ⟨hx, hys⟩, Nat.succ_le_succ hlen, fun zs hzs => ?_⟩
  obtain ⟨hxz, hyz⟩ := List.cons_subset.mp hzs
  -- the loop over `zs` comes to `x` as well, and its body rejects `zs` there
  exact List.all_eq_false.mpr ⟨x, hxz, Bool.eq_false_iff.mp (hrefute zs hyz)⟩

theorem mono (h : RefutedBy k check) (hkl : k ≤ l) : RefutedBy l check := by
  intro xs hxs
  obtain ⟨ys, hys, hlen, hrefute⟩ := h xs hxs
  exact ⟨ys, hys, Nat.le_trans hlen hkl, hrefute⟩

theorem and {check' : List α → Bool} (h : RefutedBy k check) (h' : RefutedBy k check') :
    RefutedBy k fun xs => check xs && check' xs := by
  intro xs hxs
  rcases Bool.and_eq_false_iff.mp hxs with hc | hc
  · obtain ⟨ys, hys, hlen, hrefute⟩ := h xs hc
    exact ⟨ys, hys, hlen, fun zs hzs => Bool.and_eq_false_iff.mpr (.inl (hrefute zs hzs))⟩
  · obtain ⟨ys, hys, hlen, hrefute⟩ := h' xs hc
    exact ⟨ys, hys, hlen, fun zs hzs => Bool.and_eq_false_iff.mpr (.inr (hrefute zs hzs))⟩

/-! ### Verdicts on subsamples -/

/-- A subsample of an accepted sample is accepted. -/
theorem accepts_of_subset (h : RefutedBy k check) {xs ys : List α} (hys : ys ⊆ xs)
    (hxs : check xs = true) : check ys = true := by
  by_contra hrej
  obtain ⟨zs, hzs, -, hrefute⟩ := h ys (Bool.eq_false_iff.mpr hrej)
  rw [hrefute xs fun _ hx => hys (hzs hx)] at hxs
  exact Bool.false_ne_true hxs

/-- The verdict depends only on which values occur. -/
theorem eq_of_mem_iff (h : RefutedBy k check) {xs ys : List α} (hmem : ∀ x, x ∈ ys ↔ x ∈ xs) :
    check ys = check xs := by
  have hsub : ys ⊆ xs := fun x => (hmem x).mp
  have hsup : xs ⊆ ys := fun x => (hmem x).mpr
  exact Bool.eq_iff_iff.mpr ⟨h.accepts_of_subset hsup, h.accepts_of_subset hsub⟩

/-- A rejected sample has a rejected part of at most `k` values, left in their places. -/
theorem exists_sublist (h : RefutedBy k check) {xs : List α} (hxs : check xs = false) :
    ∃ ys, ys.Sublist xs ∧ ys.length ≤ k ∧ check ys = false := by
  classical
  obtain ⟨ys, hys, hlen, hrefute⟩ := h xs hxs
  -- without repetitions the values have places in the sample of their own
  have hsubperm : ys.dedup.Subperm xs :=
    (List.nodup_dedup ys).subperm fun _ hy => hys (List.mem_dedup.mp hy)
  obtain ⟨zs, hperm, hsub⟩ := hsubperm
  have hzs : ys ⊆ zs := fun _ hy => hperm.mem_iff.mpr (List.mem_dedup.mpr hy)
  have hle : zs.length ≤ ys.length := by
    rw [hperm.length_eq]
    exact (List.dedup_sublist ys).length_le
  exact ⟨zs, hsub, Nat.le_trans hle hlen, hrefute zs hzs⟩

theorem accepts_iff (h : RefutedBy k check) {xs : List α} :
    check xs = true ↔ ∀ ys, ys ⊆ xs → ys.length ≤ k → check ys = true := by
  refine ⟨fun hxs ys hys _ => h.accepts_of_subset hys hxs, fun hsmall => ?_⟩
  by_contra hrej
  obtain ⟨ys, hys, hlen, hrefute⟩ := h.exists_sublist (Bool.eq_false_iff.mpr hrej)
  rw [hsmall ys hys.subset hlen] at hrefute
  cases hrefute

/-- Where one value is enough, it is one and not none, provided that the empty sample is
accepted. -/
theorem accepts_iff_forall_singleton (h : RefutedBy 1 check) (hnil : check [] = true)
    {xs : List α} : check xs = true ↔ ∀ x ∈ xs, check [x] = true := by
  refine ⟨fun hxs x hx => h.accepts_of_subset (by simpa using hx) hxs, fun hone => ?_⟩
  rw [h.accepts_iff]
  intro ys hys hlen
  rcases ys with _ | ⟨y, _ | ⟨z, ys⟩⟩
  · exact hnil
  · exact hone y (hys List.mem_cons_self)
  · simp at hlen

end RefutedBy

/-! ### All checks -/

namespace Check

theorem accepts_nil (c : Check α) : c.accepts [] = true := by
  cases c <;> rfl

/-- Of the loops that make up lawfulness the one for transitivity is the deepest. -/
theorem refutedBy_lawful (c : Comparison α) : RefutedBy 3 (Sample.lawful c) := by
  have hdiffer : RefutedBy 2 fun xs => xs.all fun x => xs.all fun y => c.differ x y != c x y :=
    .all fun _ => .all fun _ => .const _
  have hrefl : RefutedBy 1 (Sample.reflexive c) := .all fun _ => .const _
  have hsymm : RefutedBy 2 (Sample.symmetric c) := .all fun _ => .all fun _ => .const _
  have htrans : RefutedBy 3 (Sample.transitive c) :=
    .all fun _ => .all fun _ => .all fun _ => .const _
  have hlaws : RefutedBy 3 fun xs =>
      Sample.reflexive c xs && Sample.symmetric c xs && Sample.transitive c xs :=
    ((hrefl.mono (by decide)).and (hsymm.mono (by decide))).and htrans
  exact (hdiffer.mono (by decide)).and hlaws

/-- **Every check** is refuted by as many values as it has to see together, one for each loop. -/
theorem refutedBy : (c : Check α) → RefutedBy c.width c.accepts
  | reflexive _ => .all fun _ => .const _
  | symmetric _ => .all fun _ => .all fun _ => .const _
  | transitive _ => .all fun _ => .all fun _ => .all fun _ => .const _
  | decides _ _ => .all fun _ => .all fun _ => .const _
  | lawful c => refutedBy_lawful c
  | injective _ _ _ => .all fun _ => .all fun _ => .const _
  | cancels _ _ _ => .all fun _ => .const _
  | cancelsPartly _ _ _ => .all fun _ => .const _
  | functionsAgree _ _ _ => .all fun _ => .const _
  | relationsAgree _ _ => .all fun _ => .all fun _ => .const _
  | projectsInjectively _ _ _ => .all fun _ => .all fun _ => .const _
  | reinserts? _ _ => .all fun _ => .const _
  | insertsCorrectly _ _ => .all fun _ => .const _
  | insertsCorrectlyD _ _ _ => .all fun _ => .const _

/-- **A check is as strong as on small samples.** It accepts a sample exactly when it accepts every
list of at most as many values of the sample as it has to see together, and where that is one value,
exactly when it accepts each value alone. Its verdict therefore depends only on which values occur,
a subsample of an accepted sample is accepted, and a rejected sample has a rejected part of that
size. -/
theorem accepts_iff_small (c : Check α) (xs : List α) :
    (c.accepts xs = true ↔ ∀ ys, ys ⊆ xs → ys.length ≤ c.width → c.accepts ys = true) ∧
      (c.width = 1 → (c.accepts xs = true ↔ ∀ x ∈ xs, c.accepts [x] = true)) ∧
      (∀ ys, (∀ x, x ∈ ys ↔ x ∈ xs) → c.accepts ys = c.accepts xs) ∧
      (∀ ys, ys ⊆ xs → c.accepts xs = true → c.accepts ys = true) ∧
      (c.accepts xs = false →
        ∃ ys, ys.Sublist xs ∧ ys.length ≤ c.width ∧ c.accepts ys = false) := by
  have h : RefutedBy c.width c.accepts := c.refutedBy
  refine ⟨h.accepts_iff, fun hone => ?_, fun _ => h.eq_of_mem_iff,
    fun _ hys => h.accepts_of_subset hys, h.exists_sublist⟩
  rw [hone] at h
  exact h.accepts_iff_forall_singleton c.accepts_nil

/-- Numbers in steps of one, one of them twice. -/
def nearSample : List Near := [⟨0⟩, ⟨1⟩, ⟨2⟩, ⟨1⟩]

/-- The numbers are not compared transitively up to one, and three of them show it, in any order.
Each of them is compared reflexively, and hence they all are. -/
theorem accepts_iff_small_nearSample :
    (transitive Near.compare).accepts nearSample = false ∧
      (∃ ys, ys.Sublist nearSample ∧ ys.length ≤ 3 ∧
        (transitive Near.compare).accepts ys = false) ∧
      (transitive Near.compare).accepts [⟨2⟩, ⟨1⟩, ⟨0⟩] = false ∧
      (reflexive Near.compare).width = 1 ∧
      (∀ x ∈ nearSample, (reflexive Near.compare).accepts [x] = true) ∧
      (reflexive Near.compare).accepts [⟨2⟩, ⟨0⟩, ⟨2⟩] = true := by
  obtain ⟨-, -, hvalues, -, hreject⟩ := accepts_iff_small (transitive Near.compare) nearSample
  obtain ⟨-, hone, -, hsub, -⟩ := accepts_iff_small (reflexive Near.compare) nearSample
  have htrans : (transitive Near.compare).accepts nearSample = false := by decide
  have hrefl : ∀ x ∈ nearSample, (reflexive Near.compare).accepts [x] = true := by decide
  have hmem : ∀ x : Near, x ∈ [⟨2⟩, ⟨1⟩, ⟨0⟩] ↔ x ∈ nearSample := by grind [nearSample]
  have hdraw : ([⟨2⟩, ⟨0⟩, ⟨2⟩] : List Near) ⊆ nearSample := by decide
  exact ⟨htrans, hreject htrans, (hvalues _ hmem).trans htrans, rfl, hrefl,
    hsub _ hdraw ((hone rfl).mpr hrefl)⟩

end Check

end Subsamples

open Truth (isTrue)

variable {α τ υ : Type} [Truth τ] [Truth υ] {r : α → α → τ} {s : α → α → υ} {xs : List α}

/-! ### Relations that agree on a sample -/

/-- To decide is to agree. -/
theorem decides_eq_relationsAgree (r : α → α → τ) (s : α → α → υ) (xs : List α) :
    decides r xs s = relationsAgree r s xs := rfl

theorem reflexive_congr (h : relationsAgree r s xs = true) : reflexive r xs = reflexive s xs := by
  rw [relationsAgree_eq_true_iff] at h
  rw [Bool.eq_iff_iff, reflexive_eq_true_iff, reflexive_eq_true_iff]
  refine forall₂_congr fun x hx => ?_
  rw [h x hx x hx]

theorem symmetric_congr (h : relationsAgree r s xs = true) : symmetric r xs = symmetric s xs := by
  rw [relationsAgree_eq_true_iff] at h
  rw [Bool.eq_iff_iff, symmetric_eq_true_iff, symmetric_eq_true_iff]
  refine forall₂_congr fun x hx => forall₂_congr fun y hy => ?_
  rw [h x hx y hy, h y hy x hx]

theorem transitive_congr (h : relationsAgree r s xs = true) :
    transitive r xs = transitive s xs := by
  rw [relationsAgree_eq_true_iff] at h
  rw [Bool.eq_iff_iff, transitive_eq_true_iff, transitive_eq_true_iff]
  refine forall₂_congr fun x hx => forall₂_congr fun y hy => forall₂_congr fun z hz => ?_
  rw [h x hx y hy, h y hy z hz, h x hx z hz]

/-! ### Relations that decide identity -/

variable {same : Comparison α}

theorem reflexive_of_decides (hsame : same.Decides) (xs : List α) : reflexive same xs = true :=
  reflexive_eq_true_iff.mpr fun x _ => hsame.refl x

theorem symmetric_of_decides (hsame : same.Decides) (xs : List α) : symmetric same xs = true := by
  rw [symmetric_eq_true_iff]
  intro x _ y _
  rw [Bool.eq_iff_iff]
  exact ⟨hsame.partialEquivalence.symm, hsame.partialEquivalence.symm⟩

theorem transitive_of_decides (hsame : same.Decides) (xs : List α) : transitive same xs = true :=
  transitive_eq_true_iff.mpr fun _ _ _ _ _ _ hxy hyz => hsame.partialEquivalence.trans hxy hyz

/-! ### Relations as comparisons -/

/-- **Every check** has the same verdict for its relations and for the comparisons that they
make. -/
theorem Check.accepts_asComparisons (c : Check α) : c.asComparisons.accepts = c.accepts := by
  cases c <;> rfl

/-- The check that may fault ends alike as well. -/
theorem reinserts_ofRelation {β : Type} (R : Refinement α β) (r : α → α → τ) (us : List α) :
    R.reinserts (Comparison.ofRelation r) us = R.reinserts r us := by
  rw [R.reinserts_eq_cancelsM, R.reinserts_eq_cancelsM]
  rfl

/-- **Verdicts depend only on which pairs are related.** Let two relations have results of any kind
that can be read as true or false. The one decides the other on a sample exactly when they agree
there, and then the two are alike reflexive, symmetric and transitive on the sample, or alike not.
Every check, the one that may fault included, gives the same verdict for a relation and for the
comparison that it makes. A relation that decides identity on a sample obeys all laws of an
equivalence there. -/
theorem verdicts_depend_on_truth (r : α → α → τ) (s : α → α → υ) (xs : List α) :
    decides r xs s = relationsAgree r s xs ∧
      (relationsAgree r s xs = true →
        reflexive r xs = reflexive s xs ∧ symmetric r xs = symmetric s xs ∧
          transitive r xs = transitive s xs) ∧
      (∀ c : Check α, c.asComparisons.accepts xs = c.accepts xs) ∧
      (∀ {β : Type} (R : Refinement α β),
        R.reinserts (Comparison.ofRelation r) xs = R.reinserts r xs) ∧
      ∀ same : Comparison α, same.Decides → decides r xs same = true →
        reflexive r xs = true ∧ symmetric r xs = true ∧ transitive r xs = true := by
  refine ⟨decides_eq_relationsAgree r s xs, fun h => ?_, fun c => ?_, fun R => ?_,
    fun same hsame h => ?_⟩
  · exact ⟨reflexive_congr h, symmetric_congr h, transitive_congr h⟩
  · rw [c.accepts_asComparisons]
  · exact reinserts_ofRelation R r xs
  · rw [decides_eq_relationsAgree] at h
    rw [reflexive_congr h, symmetric_congr h, transitive_congr h]
    exact ⟨reflexive_of_decides hsame xs, symmetric_of_decides hsame xs,
      transitive_of_decides hsame xs⟩

/-- The bits that two numbers have in common. -/
def commonBits (x y : Int32) : Int32 := x &&& y

/-- The bits that two numbers have in common, without the lowest. -/
def commonHigherBits (x y : Int32) : Int32 := (x &&& y) >>> 1

/-- On even numbers it makes no difference to leave out the lowest bit, although the results are
others: every number shares a bit with itself, but 2 and 4 share one with 6 and none with each
other. The powers of two share a bit with themselves only, and so the laws hold of them. -/
theorem verdicts_depend_on_truth_commonBits :
    relationsAgree commonBits commonHigherBits [2, 4, 6] = true ∧
      commonBits 6 6 ≠ commonHigherBits 6 6 ∧
      reflexive commonBits [2, 4, 6] = true ∧ transitive commonBits [2, 4, 6] = false ∧
      (Check.transitive commonBits).asComparisons.accepts [2, 4, 6] = false ∧
      (Comparison.identity : Comparison Int32).Decides ∧
      decides commonBits [1, 2, 4] (Comparison.identity : Comparison Int32) = true ∧
      transitive commonBits [1, 2, 4] = true := by
  have hagree : relationsAgree commonBits commonHigherBits [2, 4, 6] = true := by decide
  have hidentity : (Comparison.identity : Comparison Int32).Decides := .identity
  have hdecides : decides commonBits [1, 2, 4] (Comparison.identity : Comparison Int32) = true := by
    decide
  obtain ⟨-, hlaws, hchecks, -, -⟩ := verdicts_depend_on_truth commonBits commonHigherBits [2, 4, 6]
  obtain ⟨-, -, -, -, hright⟩ := verdicts_depend_on_truth commonBits commonHigherBits [1, 2, 4]
  obtain ⟨hrefl, -, htrans⟩ := hlaws hagree
  have hbroken : transitive commonBits [2, 4, 6] = false := htrans.trans (by decide)
  exact ⟨hagree, by decide, hrefl.trans (by decide), hbroken,
    (hchecks (.transitive commonBits)).trans hbroken, hidentity, hdecides,
    (hright _ hidentity hdecides).2.2⟩

end Sameness.Sample
