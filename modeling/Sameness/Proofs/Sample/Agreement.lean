import Mathlib.Data.Bool.AllAny
import Mathlib.Logic.Function.Iterate
import Sameness.Integer
import Sameness.Proofs.Compound
import Sameness.Proofs.Sample.Equivalence
import Sameness.Sample.Basic
import Sameness.Specimen

/-!
# Functions that agree, and projections that they leave unchanged

Functions from a type to itself can be compared on a sample by their values or by their graphs. A
graph shows of the image `f x` only its **row**: for each value of the sample, whether `f x` is the
same as it. Two images have the same row if they are the same, and also if neither is the same as
any value of the sample (`Sample.rows_agree_iff`). So graphs are the coarser of the two: they say
nothing of images outside the sample, and are as good as values where one function maps the sample
into itself.

What becomes of the agreement of two functions when both are composed with a third one depends on
the side:

* **Below**, at the arguments, nothing is lost. The sample moves along the function, whatever the
  comparison (`Sample.functionsAgree_comp_right`).
* **On top**, at the values, agreement is kept as long as equal values stay the same, and more may
  agree than before. No more does where the function on top is injective on the values that are
  compared (`Sample.functionsAgree_comp_left`). Its injectivity is checked on pairs of them, while
  agreement compares one pair for each point.

That a point is fixed through a projection is an agreement at this one point, namely of the
projection after the function and the projection itself
(`Comparison.fixedThrough_eq_functionsAgree`). To look through a coarser projection is to put a
function on top of both.

A **run** is a list of functions from a type to itself that are applied one after the other. It
leads from a point to another one (`pointAfter`), and so does the one function that is composed of
all of them (`composeAll`). A projection is an **invariant along** the run if every function leaves
it unchanged at the point to which it is applied; elsewhere a function may do what it likes
(`Comparison.FixedAlong`). One step is transitivity of the comparison
(`Comparison.fixedThrough_comp`), and a run without steps is reflexivity
(`Comparison.fixedThrough_composeAll`). The comparison need not be symmetric, and then an invariant
has a direction: under an order it is the projection that may go down, never up.
-/

namespace Sameness

/-! ### Graphs -/

namespace Sample

variable {α : Type} {d : Comparison α} {f g : α → α} {xs : List α}

/-- **Rows.** Two values answer alike to all values of a sample exactly when they are the same or
when neither of them is the same as any value of the sample. -/
theorem rows_agree_iff (hd : d.PartialEquivalence) {y z : α} :
    (∀ w ∈ xs, d y w = d z w) ↔ d y z = true ∨ ∀ w ∈ xs, d y w = false ∧ d z w = false := by
  constructor
  · intro hrow
    by_cases hocc : ∃ w ∈ xs, d y w = true
    · -- the value that `y` occurs as is the same as `z` too, and joins the two
      obtain ⟨w, hw, hyw⟩ := hocc
      have hzw : d z w = true := (hrow w hw).symm.trans hyw
      exact .inl (hd.trans hyw (hd.symm hzw))
    · refine .inr fun w hw => ?_
      have hyw : d y w = false := Bool.eq_false_iff.mpr fun h => hocc ⟨w, hw, h⟩
      exact ⟨hyw, (hrow w hw).symm.trans hyw⟩
  · rintro (hyz | hmiss) w hw
    · exact hd.congr_left hyz w
    · obtain ⟨hyw, hzw⟩ := hmiss w hw
      exact hyw.trans hzw.symm

/-- Two graphs agree on a sample exactly when at each of its values the images are the same, or
neither is the same as any value of the sample. -/
theorem relationsAgree_graph_iff (hd : d.PartialEquivalence) :
    relationsAgree (d.graph f) (d.graph g) xs = true ↔
      ∀ x ∈ xs, d (f x) (g x) = true ∨ ∀ y ∈ xs, d (f x) y = false ∧ d (g x) y = false := by
  rw [relationsAgree_eq_true_iff]
  exact forall₂_congr fun _ _ => rows_agree_iff hd

/-- For a comparison that decides identity, to be the same as no value of the sample is not to
occur. -/
theorem forall_eq_false_iff_notMem (hd : d.Decides) {y : α} :
    (∀ w ∈ xs, d y w = false) ↔ y ∉ xs := by
  constructor
  · intro hmiss hy
    exact Bool.eq_false_iff.mp (hmiss y hy) (hd.refl y)
  · intro hy w hw
    refine Bool.eq_false_iff.mpr fun hyw => hy ?_
    rw [(hd y w).mp hyw]
    exact hw

/-- For a comparison that decides identity, two graphs agree on a sample exactly when at each of its
values the images are equal or both lie outside the sample. -/
theorem relationsAgree_graph_iff_of_decides (hd : d.Decides) :
    relationsAgree (d.graph f) (d.graph g) xs = true ↔
      ∀ x ∈ xs, f x = g x ∨ (f x ∉ xs ∧ g x ∉ xs) := by
  rw [relationsAgree_graph_iff hd.partialEquivalence]
  refine forall₂_congr fun x _ => or_congr (hd _ _) ?_
  rw [← forall_eq_false_iff_notMem hd, ← forall_eq_false_iff_notMem hd]
  exact forall₂_and

/-- **Graphs against values.** Let a comparison decide identity. The graphs of two functions agree
on a sample exactly when at each of its values the functions have one and the same image there or
two images outside the sample. Functions that agree on a sample therefore have graphs that agree on
it, and where the first of them maps the sample into itself the verdicts on the graphs and on the
functions are the same. -/
theorem graphs_agree_iff_equal_or_outside (hd : d.Decides) (f g : α → α) (xs : List α) :
    (relationsAgree (d.graph f) (d.graph g) xs = true ↔
        ∀ x ∈ xs, f x = g x ∨ (f x ∉ xs ∧ g x ∉ xs)) ∧
      (functionsAgree d f g xs = true → relationsAgree (d.graph f) (d.graph g) xs = true) ∧
      ((∀ x ∈ xs, f x ∈ xs) →
        relationsAgree (d.graph f) (d.graph g) xs = functionsAgree d f g xs) := by
  have hgraph : relationsAgree (d.graph f) (d.graph g) xs = true ↔
      ∀ x ∈ xs, f x = g x ∨ (f x ∉ xs ∧ g x ∉ xs) := relationsAgree_graph_iff_of_decides hd
  have hvalues : functionsAgree d f g xs = true ↔ ∀ x ∈ xs, f x = g x :=
    functionsAgree_eq_true_iff.trans (forall₂_congr fun _ _ => hd _ _)
  refine ⟨hgraph, fun h => ?_, fun hinto => ?_⟩
  · exact hgraph.mpr fun x hx => .inl (hvalues.mp h x hx)
  · rw [Bool.eq_iff_iff, hgraph, hvalues]
    refine forall₂_congr fun x hx => or_iff_left ?_
    rintro ⟨hout, -⟩
    exact hout (hinto x hx)

/-- The numbers below four. The exclusive or with one maps them among themselves, and its graph
differs there from that of the identity. To add one twice is to add two, in values and hence in
graphs. To add ten and to add twenty leads outside, where the values differ and the graphs do
not. -/
theorem graphs_agree_iff_equal_or_outside_belowFour :
    (Comparison.identity : Comparison Int32).Decides ∧
      (∀ x ∈ [0, 1, 2, 3], (IntFun.xor 1).eval x ∈ ([0, 1, 2, 3] : List Int32)) ∧
      relationsAgree (Comparison.identity.graph (IntFun.xor 1).eval)
        (Comparison.identity.graph IntFun.id.eval) [0, 1, 2, 3] = false ∧
      functionsAgree Comparison.identity (IntFun.compose (.add 1) (.add 1)).eval (IntFun.add 2).eval
        [0, 1, 2, 3] = true ∧
      relationsAgree (Comparison.identity.graph (IntFun.compose (.add 1) (.add 1)).eval)
        (Comparison.identity.graph (IntFun.add 2).eval) [0, 1, 2, 3] = true ∧
      functionsAgree Comparison.identity (IntFun.add 10).eval (IntFun.add 20).eval [0, 1, 2, 3] =
        false ∧
      relationsAgree (Comparison.identity.graph (IntFun.add 10).eval)
        (Comparison.identity.graph (IntFun.add 20).eval) [0, 1, 2, 3] = true := by
  have hd : (Comparison.identity : Comparison Int32).Decides := .identity
  have hinto : ∀ x ∈ [0, 1, 2, 3], (IntFun.xor 1).eval x ∈ ([0, 1, 2, 3] : List Int32) :=
    List.all_iff_forall_prop.mp (by decide)
  have htwice : functionsAgree Comparison.identity (IntFun.compose (.add 1) (.add 1)).eval
      (IntFun.add 2).eval [0, 1, 2, 3] = true := by decide
  obtain ⟨-, -, hsame⟩ :=
    graphs_agree_iff_equal_or_outside hd (IntFun.xor 1).eval IntFun.id.eval [0, 1, 2, 3]
  obtain ⟨-, hvalues, -⟩ := graphs_agree_iff_equal_or_outside hd
    (IntFun.compose (.add 1) (.add 1)).eval (IntFun.add 2).eval [0, 1, 2, 3]
  obtain ⟨hiff, -, -⟩ :=
    graphs_agree_iff_equal_or_outside hd (IntFun.add 10).eval (IntFun.add 20).eval [0, 1, 2, 3]
  exact ⟨hd, hinto, (hsame hinto).trans (by decide), htwice, hvalues htwice, by decide,
    hiff.mpr (List.all_iff_forall_prop.mp (by decide))⟩

end Sample

section Composed

variable {α β γ σ : Type} {d : Comparison β} {e : Comparison γ} {f g : α → β} {h : β → γ}
  {xs : List α} {zs : List β}

namespace Sample

/-! ### Functions composed with one another -/

/-- Functions that agree below a third one agree on the values of that one. -/
theorem functionsAgree_comp_right (d : Comparison β) (f g : α → β) (k : σ → α) (ws : List σ) :
    functionsAgree d (f ∘ k) (g ∘ k) ws = functionsAgree d f g (ws.map k) := by
  rw [functionsAgree, functionsAgree, List.all_map]
  rfl

/-- Agreement is kept under a function, since equal values have equal images. -/
theorem functionsAgree_comp_left_of_decides (hd : d.Decides) (he : ∀ z, e z z = true)
    (hfg : functionsAgree d f g xs = true) : functionsAgree e (h ∘ f) (h ∘ g) xs = true := by
  rw [functionsAgree_eq_true_iff] at hfg ⊢
  intro x hx
  have hvalue : f x = g x := (hd _ _).mp (hfg x hx)
  rw [Function.comp_apply, Function.comp_apply, hvalue]
  exact he _

/-- **Cancellation on top.** A function that is injective on the values compared, and respects the
two comparisons there, may be left out. -/
theorem functionsAgree_comp_left (hresp : Respects d e h zs) (hinj : injective d e h zs = true)
    (hvalues : ∀ x ∈ xs, f x ∈ zs ∧ g x ∈ zs) :
    functionsAgree e (h ∘ f) (h ∘ g) xs = functionsAgree d f g xs := by
  rw [Bool.eq_iff_iff, functionsAgree_eq_true_iff, functionsAgree_eq_true_iff]
  refine forall₂_congr fun x hx => ?_
  obtain ⟨hf, hg⟩ := hvalues x hx
  rw [Function.comp_apply, Function.comp_apply, along_eq_of_injective hresp hinj hf hg]

/-- **Agreement under composition.** Two functions composed with a third one below agree on a sample
exactly when they agree on its values, for any comparison. Let the comparison of the values decide
identity and the one on top be reflexive. Then functions that agree on a sample agree under any
function on top, and the two verdicts are the same if that function is injective on a sample of
values in which those of both functions occur. -/
theorem agreement_under_composition (d : Comparison β) (e : Comparison γ) (f g : α → β) (k : σ → α)
    (h : β → γ) :
    (∀ ws, functionsAgree d (f ∘ k) (g ∘ k) ws = functionsAgree d f g (ws.map k)) ∧
      (d.Decides → (∀ z, e z z = true) → ∀ xs,
        (functionsAgree d f g xs = true → functionsAgree e (h ∘ f) (h ∘ g) xs = true) ∧
        ∀ zs, (∀ x ∈ xs, f x ∈ zs ∧ g x ∈ zs) → injective d e h zs = true →
          functionsAgree e (h ∘ f) (h ∘ g) xs = functionsAgree d f g xs) := by
  refine ⟨functionsAgree_comp_right d f g k, fun hd he xs => ⟨?_, fun zs hvalues hinj => ?_⟩⟩
  · exact functionsAgree_comp_left_of_decides hd he
  · exact functionsAgree_comp_left (.of_decides hd he) hinj hvalues

/-- The triple of a number, compared up to one. -/
def tripled (n : Int32) : Near := ⟨(IntFun.mul 3).eval n⟩

/-- The remainder by four is the same after four has been added, and it differs from the remainder
by two. The triples of the remainders, compared up to one, say the same. Four above multiples of
four the two remainders agree. -/
theorem agreement_under_composition_remainders :
    (Comparison.identity : Comparison Int32).Decides ∧ (∀ z, Near.compare z z = true) ∧
      functionsAgree Near.compare (tripled ∘ (IntFun.compose (.mod 4) (.add 4)).eval)
        (tripled ∘ (IntFun.mod 4).eval) [-5, 0, 6] = true ∧
      (∀ x ∈ [-5, 0, 6], (IntFun.mod 4).eval x ∈ ([0, 1, 2, 3] : List Int32) ∧
        (IntFun.mod 2).eval x ∈ ([0, 1, 2, 3] : List Int32)) ∧
      injective Comparison.identity Near.compare tripled [0, 1, 2, 3] = true ∧
      functionsAgree Near.compare (tripled ∘ (IntFun.mod 4).eval) (tripled ∘ (IntFun.mod 2).eval)
        [-5, 0, 6] = false ∧
      functionsAgree Comparison.identity (IntFun.compose (.mod 4) (.add 4)).eval
        (IntFun.compose (.mod 2) (.add 4)).eval [-8, -4] = true := by
  have hd : (Comparison.identity : Comparison Int32).Decides := .identity
  have he : ∀ z, Near.compare z z = true := Near.compare_self
  have hvalues : ∀ x ∈ [-5, 0, 6], (IntFun.mod 4).eval x ∈ ([0, 1, 2, 3] : List Int32) ∧
      (IntFun.mod 2).eval x ∈ ([0, 1, 2, 3] : List Int32) :=
    List.all_iff_forall_prop.mp (by decide)
  have hinj : injective Comparison.identity Near.compare tripled [0, 1, 2, 3] = true := by decide
  obtain ⟨-, hkept⟩ := agreement_under_composition Comparison.identity Near.compare
    (IntFun.compose (.mod 4) (.add 4)).eval (IntFun.mod 4).eval IntFun.id.eval tripled
  obtain ⟨hbelow, hsame⟩ := agreement_under_composition Comparison.identity Near.compare
    (IntFun.mod 4).eval (IntFun.mod 2).eval (IntFun.add 4).eval tripled
  refine ⟨hd, he, (hkept hd he _).1 (by decide), hvalues, hinj,
    ((hsame hd he _).2 _ hvalues hinj).trans (by decide), ?_⟩
  rw [IntFun.eval_compose, IntFun.eval_compose, hbelow]
  decide

end Sample

/-! ### Points fixed through a projection -/

namespace Comparison

open Sample (functionsAgree functionsAgree_comp_left functionsAgree_comp_left_of_decides)

/-- To be fixed through a projection is an agreement at one point. -/
theorem fixedThrough_eq_functionsAgree (d : Comparison β) (f : α → α) (k : α → β) (x : α) :
    d.fixedThrough f k x = functionsAgree d (k ∘ f) k [x] := by
  rw [functionsAgree, List.all_cons, List.all_nil, Bool.and_true]
  rfl

/-- **A coarser projection.** Let the comparison of the projected values decide identity, and let
there be a function on them into values with a reflexive comparison. A point that is fixed through
the projection is fixed through the projection followed by that function. If the function is
injective on a sample in which the projections of the points of a list occur, before and after, then
at these points no more is fixed through the one than through the other. -/
theorem fixedThrough_under_composition (hd : d.Decides) (he : ∀ z, e z z = true) (f : α → α)
    (k : α → β) (h : β → γ) :
    (∀ x, d.fixedThrough f k x = true → e.fixedThrough f (h ∘ k) x = true) ∧
      ∀ (zs : List β) (xs : List α), (∀ x ∈ xs, k x ∈ zs ∧ k (f x) ∈ zs) →
        Sample.injective d e h zs = true →
        ∀ x ∈ xs, e.fixedThrough f (h ∘ k) x = d.fixedThrough f k x := by
  simp only [fixedThrough_eq_functionsAgree, Function.comp_assoc]
  refine ⟨fun x => functionsAgree_comp_left_of_decides hd he, fun zs xs hseen hinj x hx => ?_⟩
  refine functionsAgree_comp_left (.of_decides hd he) hinj ?_
  rw [List.forall_mem_singleton]
  exact (hseen x hx).symm

/-- Four can be added to seven without a change of the remainder by four. Zero has the same
remainder as its square and three has not, and the triples of the remainders, compared up to one,
say the same. -/
theorem fixedThrough_under_composition_remainders :
    (Comparison.identity : Comparison Int32).Decides ∧ (∀ z, Near.compare z z = true) ∧
      Comparison.identity.fixedThrough (IntFun.add 4).eval (IntFun.mod 4).eval 7 = true ∧
      Near.compare.fixedThrough (IntFun.add 4).eval (Near.mk ∘ (IntFun.mod 4).eval) 7 = true ∧
      (∀ x ∈ [0, 3], (IntFun.mod 4).eval x ∈ ([0, 1, 3] : List Int32) ∧
        (IntFun.mod 4).eval (IntFun.square.eval x) ∈ ([0, 1, 3] : List Int32)) ∧
      Sample.injective Comparison.identity Near.compare Sample.tripled [0, 1, 3] = true ∧
      Near.compare.fixedThrough IntFun.square.eval (Sample.tripled ∘ (IntFun.mod 4).eval) 0 = true ∧
      Near.compare.fixedThrough IntFun.square.eval (Sample.tripled ∘ (IntFun.mod 4).eval) 3 =
        false := by
  have hd : (Comparison.identity : Comparison Int32).Decides := .identity
  have he : ∀ z, Near.compare z z = true := Near.compare_self
  have hseven :
      Comparison.identity.fixedThrough (IntFun.add 4).eval (IntFun.mod 4).eval 7 = true := by
    decide
  have hseen : ∀ x ∈ [0, 3], (IntFun.mod 4).eval x ∈ ([0, 1, 3] : List Int32) ∧
      (IntFun.mod 4).eval (IntFun.square.eval x) ∈ ([0, 1, 3] : List Int32) :=
    List.all_iff_forall_prop.mp (by decide)
  have hinj :
      Sample.injective Comparison.identity Near.compare Sample.tripled [0, 1, 3] = true := by
    decide
  obtain ⟨hkept, -⟩ := fixedThrough_under_composition hd he (IntFun.add 4).eval (IntFun.mod 4).eval
    Near.mk
  obtain ⟨-, hsame⟩ := fixedThrough_under_composition hd he IntFun.square.eval (IntFun.mod 4).eval
    Sample.tripled
  have hverdict := hsame _ _ hseen hinj
  exact ⟨hd, he, hseven, hkept _ hseven, hseen, hinj, (hverdict 0 (by decide)).trans (by decide),
    (hverdict 3 (by decide)).trans (by decide)⟩

/-- More can be fixed through a coarser projection: up to one, the remainder of zero is not changed
by the addition of one. -/
example :
    Comparison.identity.fixedThrough (IntFun.add 1).eval (IntFun.mod 4).eval 0 = false ∧
      Near.compare.fixedThrough (IntFun.add 1).eval (Near.mk ∘ (IntFun.mod 4).eval) 0 = true := by
  decide

end Comparison

end Composed

section Invariants

variable {α β : Type}

/-! ### Runs of functions -/

/-- The point that the functions of a list lead to, one after the other. -/
def pointAfter (fs : List (α → α)) (x : α) : α := fs.foldl (fun y f => f y) x

/-- The functions of a list composed to one, the first of them innermost. -/
def composeAll (fs : List (α → α)) : α → α := fs.foldl (fun g f => f ∘ g) id

@[simp] theorem pointAfter_nil (x : α) : pointAfter [] x = x := rfl

@[simp] theorem pointAfter_cons (f : α → α) (fs : List (α → α)) (x : α) :
    pointAfter (f :: fs) x = pointAfter fs (f x) := rfl

/-- Composing on top of a function goes on from where that function leads. -/
theorem foldl_comp_apply (fs : List (α → α)) (g : α → α) (x : α) :
    fs.foldl (fun g f => f ∘ g) g x = pointAfter fs (g x) := by
  induction fs generalizing g with
  | nil => rfl
  | cons f fs ih => exact ih (f ∘ g)

theorem composeAll_apply (fs : List (α → α)) (x : α) : composeAll fs x = pointAfter fs x :=
  foldl_comp_apply fs id x

theorem composeAll_cons (f : α → α) (fs : List (α → α)) :
    composeAll (f :: fs) = composeAll fs ∘ f := by
  funext x
  rw [Function.comp_apply, composeAll_apply, composeAll_apply, pointAfter_cons]

/-- A run that repeats one function iterates it. -/
theorem pointAfter_replicate (f : α → α) (n : Nat) (x : α) :
    pointAfter (List.replicate n f) x = f^[n] x := by
  induction n generalizing x with
  | zero => rfl
  | succ n ih => rw [List.replicate_succ, pointAfter_cons, ih, Function.iterate_succ_apply]

namespace Comparison

variable {d : Comparison β} {k : α → β} {f g : α → α} {fs : List (α → α)} {x : α}

/-! ### What is left unchanged on the way -/

/-- The projection is an **invariant along** a run: each of its functions leaves it unchanged at the
point that the functions before it have led to. -/
def FixedAlong (d : Comparison β) (k : α → β) (fs : List (α → α)) (x : α) : Prop :=
  ∀ i (hi : i < fs.length), d.fixedThrough fs[i] k (pointAfter (fs.take i) x) = true

instance : Decidable (d.FixedAlong k fs x) :=
  inferInstanceAs (Decidable (∀ i (hi : i < fs.length),
    d.fixedThrough fs[i] k (pointAfter (fs.take i) x) = true))

theorem fixedAlong_cons :
    d.FixedAlong k (f :: fs) x ↔ d.fixedThrough f k x = true ∧ d.FixedAlong k fs (f x) := by
  constructor
  · intro h
    exact ⟨h 0 (Nat.zero_lt_succ _), fun i hi => h (i + 1) (Nat.succ_lt_succ hi)⟩
  · rintro ⟨hf, hrest⟩ (_ | i) hi
    · exact hf
    · exact hrest i (Nat.lt_of_succ_lt_succ hi)

theorem fixedAlong_replicate {n : Nat} :
    d.FixedAlong k (List.replicate n f) x ↔
      ∀ i < n, d.fixedThrough f k (f^[i] x) = true := by
  simp only [FixedAlong, List.length_replicate, List.getElem_replicate, List.take_replicate,
    pointAfter_replicate]
  refine forall₂_congr fun i hi => ?_
  rw [Nat.min_eq_left (Nat.le_of_lt hi)]

/-! ### One step and the whole run -/

/-- **One step.** The second function starts where the first one has led, so that its verdict stands
on the left and the two join in this order. -/
theorem fixedThrough_comp
    (htrans : ∀ {y₁ y₂ y₃}, d y₁ y₂ = true → d y₂ y₃ = true → d y₁ y₃ = true)
    (hf : d.fixedThrough f k x = true) (hg : d.fixedThrough g k (f x) = true) :
    d.fixedThrough (g ∘ f) k x = true :=
  htrans hg hf

/-- **The whole run**, by its first function and the run of the others from where that one leads. -/
theorem fixedThrough_composeAll (hrefl : ∀ y, d y y = true)
    (htrans : ∀ {y₁ y₂ y₃}, d y₁ y₂ = true → d y₂ y₃ = true → d y₁ y₃ = true)
    (h : d.FixedAlong k fs x) : d.fixedThrough (composeAll fs) k x = true := by
  induction fs generalizing x with
  | nil => exact hrefl (k x)
  | cons f fs ih =>
    obtain ⟨hf, hrest⟩ := fixedAlong_cons.mp h
    rw [composeAll_cons]
    exact fixedThrough_comp htrans hf (ih hrest)

/-- **Invariants are kept along runs.** Let a comparison be reflexive and transitive. Whenever each
function of a run leaves a projection unchanged at the point to which it is applied, the composed
function leaves it unchanged at the first point. In particular, if a function leaves the projection
unchanged at the first `n` points of its orbit, then the projection of the next one is the same as
that of the first. -/
theorem invariant_along_run (hrefl : ∀ y, d y y = true)
    (htrans : ∀ {y₁ y₂ y₃}, d y₁ y₂ = true → d y₂ y₃ = true → d y₁ y₃ = true) (k : α → β) :
    (∀ fs x, d.FixedAlong k fs x → d.fixedThrough (composeAll fs) k x = true) ∧
      ∀ f n x, (∀ i < n, d.fixedThrough f k (f^[i] x) = true) → d (k (f^[n] x)) (k x) = true := by
  have hrun : ∀ fs x, d.FixedAlong k fs x → d.fixedThrough (composeAll fs) k x = true :=
    fun fs x => fixedThrough_composeAll hrefl htrans
  refine ⟨hrun, fun f n x horbit => ?_⟩
  have hrepeat : d.fixedThrough (composeAll (List.replicate n f)) k x = true :=
    hrun _ x (fixedAlong_replicate.mpr horbit)
  rwa [fixedThrough, composeAll_apply, pointAfter_replicate] at hrepeat

/-- From nine the run goes down to two and on to minus three. The constant two would have gone up
from zero, which the run does not come to. Halving goes down from nine three times. -/
theorem invariant_along_run_downwards :
    (∀ y, AtMost.compare y y = true) ∧
      (∀ y₁ y₂ y₃, AtMost.compare y₁ y₂ = true → AtMost.compare y₂ y₃ = true →
        AtMost.compare y₁ y₃ = true) ∧
      AtMost.compare.FixedAlong AtMost.mk [(IntFun.const 2).eval, (IntFun.add (-5)).eval] 9 ∧
      AtMost.compare.fixedThrough (IntFun.const 2).eval AtMost.mk 0 = false ∧
      AtMost.compare.fixedThrough (composeAll [(IntFun.const 2).eval, (IntFun.add (-5)).eval])
        AtMost.mk 9 = true ∧
      (∀ i < 3, AtMost.compare.fixedThrough (IntFun.div 2).eval AtMost.mk
        ((IntFun.div 2).eval^[i] 9) = true) ∧
      AtMost.compare ⟨(IntFun.div 2).eval^[3] 9⟩ ⟨9⟩ = true := by
  have hdown : AtMost.compare.FixedAlong AtMost.mk
      [(IntFun.const 2).eval, (IntFun.add (-5)).eval] 9 := by decide
  have horbit : ∀ i < 3, AtMost.compare.fixedThrough (IntFun.div 2).eval AtMost.mk
      ((IntFun.div 2).eval^[i] 9) = true := by decide
  obtain ⟨hrun, hiterate⟩ :=
    invariant_along_run AtMost.compare_self AtMost.compare_trans AtMost.mk
  exact ⟨AtMost.compare_self, fun _ _ _ => AtMost.compare_trans, hdown, by decide, hrun _ _ hdown,
    horbit, hiterate _ _ _ horbit⟩

end Comparison

end Invariants

end Sameness
