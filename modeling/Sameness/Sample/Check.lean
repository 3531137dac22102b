import Sameness.Refinement.Basic
import Sameness.Sample.Basic

/-!
# Laws of refinements, and all checks by name

A refinement is meant to be an isomorphism between its values and the accepted base values. The
checkers here look for the pieces of that law on finite samples, some on refined values `us` and
some on base values `xs`, and each has one lemma that says what its acceptance means. On refined
values the ground truth is a relation `same`, which need not come from the base. Projecting and
building again is checked twice: `Refinement.reinserts?` takes a projection that is refused as a
failure of the law, while `Refinement.reinserts` faults on it. Both accept the same samples.

A `Sample.Check` is one of all the checks of a sample that give a verdict, with the relations,
functions or refinement that it is about, so that something can be said of every one of them. The
sample consists of values of any type for the laws of comparisons, functions and relations, of
refined values for the laws of a refinement on these, and of base values for the laws of insertion.
-/

namespace Sameness

/-! ### Refinements -/

namespace Refinement

open Truth (isTrue)

variable {σ β τ : Type} [Truth τ] (R : Refinement σ β)

/-- Refined values with the same projection are the same. -/
def projectsInjectively (c : Comparison β) (same : σ → σ → τ) (us : List σ) : Bool :=
  us.all fun u => us.all fun v => !(c (R.toBase u) (R.toBase v) && !isTrue (same u v))

/-- The projection of a refined value is accepted and builds that value again. -/
def reinserts? (same : σ → σ → τ) (us : List σ) : Bool :=
  us.all fun u =>
    match R.ofBase? (R.toBase u) with
    | some v => isTrue (same v u)
    | none => false

/-- The projection of a refined value builds that value again. The values are taken in order: the
first one that is not rebuilt ends the check, and one whose projection is refused ends it with
the fault. -/
def reinserts (same : σ → σ → τ) : List σ → Except Fault Bool
  | [] => .ok true
  | u :: us => do
    let v ← R.ofBase (R.toBase u)
    if isTrue (same v u) then reinserts same us else return false

/-- A base value is inserted exactly when it is accepted, and the inserted value projects back to
it. -/
def insertsCorrectly (c : Comparison β) (xs : List β) : Bool :=
  xs.all fun x =>
    ((R.ofBase? x).isSome == R.accepts x) &&
      match R.ofBase? x with
      | some u => c (R.toBase u) x
      | none => true

/-- Insertion with a default projects to the base value if it is accepted, and to the projection of
the default otherwise. -/
def insertsCorrectlyD (c : Comparison β) (default : σ) (xs : List β) : Bool :=
  xs.all fun x =>
    c (R.toBase (R.ofBaseD default x)) (if R.accepts x then x else R.toBase default)

variable {R} {c : Comparison β} {same : σ → σ → τ} {us : List σ} {xs : List β}

theorem projectsInjectively_eq_true_iff :
    R.projectsInjectively c same us = true ↔
      ∀ u ∈ us, ∀ v ∈ us, c (R.toBase u) (R.toBase v) = true → isTrue (same u v) = true := by
  simp only [projectsInjectively, List.all_eq_true]
  refine forall₂_congr fun u _ => forall₂_congr fun v _ => ?_
  cases c (R.toBase u) (R.toBase v) <;> cases isTrue (same u v) <;> simp

theorem reinserts?_eq_true_iff :
    R.reinserts? same us = true ↔
      ∀ u ∈ us, R.accepts (R.toBase u) = true ∧
        isTrue (same (R.build (R.toBase u)) u) = true := by
  simp only [reinserts?, List.all_eq_true]
  refine forall₂_congr fun u _ => ?_
  cases h : R.accepts (R.toBase u)
  · simp [ofBase?_of_not_accepts h]
  · simp [ofBase?_of_accepts h]

theorem reinserts_eq_ok_true_iff :
    R.reinserts same us = .ok true ↔
      ∀ u ∈ us, R.accepts (R.toBase u) = true ∧
        isTrue (same (R.build (R.toBase u)) u) = true := by
  induction us with
  | nil => simp [reinserts]
  | cons u us ih =>
    rw [List.forall_mem_cons, ← ih, reinserts]
    cases h : R.accepts (R.toBase u)
    · simp [ofBase_of_not_accepts h, bind, Except.bind]
    · cases hsame : isTrue (same (R.build (R.toBase u)) u) <;>
        simp [ofBase_of_accepts h, bind, Except.bind, hsame, pure, Except.pure]

theorem insertsCorrectly_eq_true_iff :
    R.insertsCorrectly c xs = true ↔
      ∀ x ∈ xs, R.accepts x = true → c (R.toBase (R.build x)) x = true := by
  simp only [insertsCorrectly, List.all_eq_true]
  refine forall₂_congr fun x _ => ?_
  cases h : R.accepts x
  · simp [ofBase?_of_not_accepts h]
  · simp [ofBase?_of_accepts h]

theorem insertsCorrectlyD_eq_true_iff {default : σ} :
    R.insertsCorrectlyD c default xs = true ↔
      ∀ x ∈ xs, (R.accepts x = true → c (R.toBase (R.build x)) x = true) ∧
        (R.accepts x = false → c.selfSame (R.toBase default) = true) := by
  simp only [insertsCorrectlyD, List.all_eq_true]
  refine forall₂_congr fun x _ => ?_
  cases h : R.accepts x
  · simp [ofBaseD_of_not_accepts h, Comparison.selfSame]
  · simp [ofBaseD_of_accepts h]

end Refinement

/-! ### All checks -/

namespace Sample

/-- A check of samples with values of `α`. -/
inductive Check (α : Type) : Type 1 where
  | reflexive {τ : Type} [Truth τ] (r : α → α → τ)
  | symmetric {τ : Type} [Truth τ] (r : α → α → τ)
  | transitive {τ : Type} [Truth τ] (r : α → α → τ)
  | decides {τ υ : Type} [Truth τ] [Truth υ] (r : α → α → τ) (same : α → α → υ)
  | lawful (c : Comparison α)
  | injective {β : Type} (c : Comparison α) (d : Comparison β) (f : α → β)
  | cancels {β : Type} (c : Comparison α) (f : α → β) (back : β → α)
  | cancelsPartly {β : Type} (c : Comparison α) (f : α → β) (back? : β → Option α)
  | functionsAgree {β : Type} (d : Comparison β) (f g : α → β)
  | relationsAgree {τ υ : Type} [Truth τ] [Truth υ] (r : α → α → τ) (s : α → α → υ)
  | projectsInjectively {β τ : Type} [Truth τ] (R : Refinement α β) (c : Comparison β)
      (same : α → α → τ)
  | reinserts? {β τ : Type} [Truth τ] (R : Refinement α β) (same : α → α → τ)
  | insertsCorrectly {σ : Type} (R : Refinement σ α) (c : Comparison α)
  | insertsCorrectlyD {σ : Type} (R : Refinement σ α) (c : Comparison α) (default : σ)

namespace Check

variable {α : Type}

/-- The verdict of a check on a sample. -/
def accepts : Check α → List α → Bool
  | reflexive r => Sample.reflexive r
  | symmetric r => Sample.symmetric r
  | transitive r => Sample.transitive r
  | decides r same => fun xs => Sample.decides r xs same
  | lawful c => Sample.lawful c
  | injective c d f => Sample.injective c d f
  | cancels c f back => Sample.cancels c f back
  | cancelsPartly c f back? => Sample.cancelsPartly c f back?
  | functionsAgree d f g => Sample.functionsAgree d f g
  | relationsAgree r s => Sample.relationsAgree r s
  | projectsInjectively R c same => R.projectsInjectively c same
  | reinserts? R same => R.reinserts? same
  | insertsCorrectly R c => R.insertsCorrectly c
  | insertsCorrectlyD R c default => R.insertsCorrectlyD c default

/-- How many values of a sample a check has to see together. -/
def width : Check α → Nat
  | reflexive _ => 1
  | symmetric _ => 2
  | transitive _ => 3
  | decides _ _ => 2
  | lawful _ => 3
  | injective _ _ _ => 2
  | cancels _ _ _ => 1
  | cancelsPartly _ _ _ => 1
  | functionsAgree _ _ _ => 1
  | relationsAgree _ _ => 2
  | projectsInjectively _ _ _ => 2
  | reinserts? _ _ => 1
  | insertsCorrectly _ _ => 1
  | insertsCorrectlyD _ _ _ => 1

/-- The check with its relations taken as comparisons, so that no result is left but true and
false. -/
def asComparisons : Check α → Check α
  | reflexive r => reflexive (Comparison.ofRelation r)
  | symmetric r => symmetric (Comparison.ofRelation r)
  | transitive r => transitive (Comparison.ofRelation r)
  | decides r same => decides (Comparison.ofRelation r) (Comparison.ofRelation same)
  | relationsAgree r s => relationsAgree (Comparison.ofRelation r) (Comparison.ofRelation s)
  | projectsInjectively R c same => projectsInjectively R c (Comparison.ofRelation same)
  | reinserts? R same => reinserts? R (Comparison.ofRelation same)
  | c => c

end Check

end Sample

end Sameness
