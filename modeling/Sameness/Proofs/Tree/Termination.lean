import Sameness.Compound.Tree
import Sameness.Proofs.Compound

/-!
# The comparison of trees comes to an end

The comparison of trees calls itself through pairs and options inside a variant, and no part of it
recurses by itself. What it does is followed here on trials, which keep apart a verdict and a
comparison that ran out of calls:

* **One layer** (`Tree.decidesAt_layer`): if the trials of the trees below the left argument reach
  the right verdicts, then so does the trial of the layer, whatever tree is on the right. Shapes
  that do not match need no call at all.
* **All layers** (`Tree.decidesAt_tryWithin`): as many calls inside one another as the left argument
  is deep are enough, by induction on their number.

A trial with enough calls is the comparison itself, so the comparison decides identity and solves
the equation by which trees are compared through their layers.
-/

namespace Sameness

/-! ### Trials that reach the right verdict -/

/-- With `x` on the left the trial **reaches a verdict**, whatever is on the right, and the verdict
is identity. -/
def Trial.DecidesAt {α : Type} (p : Trial α) (x : α) : Prop :=
  ∀ y, ∃ b, p x y = some b ∧ (b = true ↔ x = y)

namespace Trial.DecidesAt

variable {α β : Type} {p : Trial α} {q : Trial β} {x : α} {y : β}

theorem of_decides {c : Comparison α} (hc : c.Decides) (x : α) : (ofComparison c).DecidesAt x :=
  fun y => ⟨c x y, rfl, hc x y⟩

protected theorem pair (hx : p.DecidesAt x) (hy : q.DecidesAt y) : (p.pair q).DecidesAt (x, y) := by
  rintro ⟨x', y'⟩
  obtain ⟨b, hb, hbx⟩ := hx x'
  cases b with
  | false =>
    -- the second components are not tried
    have hne : x ≠ x' := fun h => Bool.false_ne_true (hbx.mpr h)
    refine ⟨false, ?_, by simp [hne]⟩
    rw [Trial.pair, hb]
    rfl
  | true =>
    obtain rfl : x = x' := hbx.mp rfl
    obtain ⟨b, hb', hby⟩ := hy y'
    refine ⟨b, ?_, by simpa using hby⟩
    rw [Trial.pair, hb]
    exact hb'

theorem none (p : Trial α) : p.option.DecidesAt none := by
  rintro (_ | y)
  · exact ⟨true, rfl, by simp⟩
  · exact ⟨false, rfl, by simp⟩

protected theorem some (hx : p.DecidesAt x) : p.option.DecidesAt (some x) := by
  rintro (_ | y)
  · exact ⟨false, rfl, by simp⟩
  · obtain ⟨b, hb, hbx⟩ := hx y
    exact ⟨b, hb, by simpa using hbx⟩

theorem chosen {n : Nat} {F : Fin n → Type} {ps : (k : Fin n) → Trial (F k)} {k : Fin n} {x : F k}
    (hx : (ps k).DecidesAt x) : (variant ps).DecidesAt (.chosen k x) := by
  rintro (_ | ⟨j, y⟩)
  · exact ⟨false, rfl, by simp⟩
  · by_cases h : k = j
    · subst h
      obtain ⟨b, hb, hbx⟩ := hx y
      exact ⟨b, by rw [variant_chosen_self, hb], by simpa using hbx⟩
    · exact ⟨false, variant_chosen_of_ne ps h x y, by simp [h]⟩

protected theorem along {f : β → α} (hf : Function.Injective f) (h : p.DecidesAt (f y)) :
    (p.along f).DecidesAt y := by
  intro y'
  obtain ⟨b, hb, hbx⟩ := h (f y')
  exact ⟨b, hb, hbx.trans hf.eq_iff⟩

end Trial.DecidesAt

namespace Tree

variable {ς τ : Type}

/-! ### One layer -/

theorem layer_injective : Function.Injective (layer : Tree ς → Variant (Part ς (Tree ς))) := by
  intro t u h
  have hsome : some t = some u := by rw [← ofLayer?_layer t, h, ofLayer?_layer]
  exact Option.some.inj hsome

theorem depth_pos (t : Tree ς) : 0 < t.depth := by
  unfold depth
  split <;> omega

/-- The trees below are less deep. -/
theorem depth_lt_of_mem_beneath {s t : Tree ς} (h : s ∈ t.beneath) : s.depth < t.depth := by
  unfold beneath at h
  split at h
  · simp only [List.mem_cons, List.not_mem_nil, or_false] at h
    rw [depth]
    rcases h with rfl | rfl <;> omega
  · obtain rfl := List.mem_singleton.mp h
    rw [depth]
    exact Nat.lt_succ_self _
  · cases h

variable [DecidableEq ς]

/-- **One layer.** The trial of a tree decides identity if the trials of the trees below do. -/
theorem decidesAt_layer {p : Trial (Tree ς)} {t : Tree ς} (h : ∀ s ∈ t.beneath, p.DecidesAt s) :
    ((Trial.variant (tryPart p)).along layer).DecidesAt t := by
  refine .along layer_injective ?_
  cases t with
  | unit => exact .chosen (.of_decides .unit _)
  | bool b => exact .chosen (.of_decides .bool _)
  | int n => exact .chosen (.of_decides (Comparison.Decides.identity (α := Int64)) n)
  | text s => exact .chosen (.of_decides (Comparison.Decides.identity (α := ς)) s)
  | pair l r => exact .chosen (.pair (h l (by simp [beneath])) (h r (by simp [beneath])))
  | maybe t =>
    cases t with
    | none => exact .chosen (.none p)
    | some t => exact .chosen (.some (h t (by simp [beneath])))

/-! ### All layers -/

/-- **All layers.** As many calls inside one another as the left tree is deep are enough. -/
theorem decidesAt_tryWithin {n : Nat} {t : Tree ς} (h : t.depth ≤ n) :
    (tryWithin n).DecidesAt t := by
  induction n generalizing t with
  | zero => exact absurd h (Nat.not_le_of_gt t.depth_pos)
  | succ n ih =>
    refine decidesAt_layer fun s hs => ih ?_
    have hlt : s.depth < t.depth := depth_lt_of_mem_beneath hs
    omega

theorem verdict_tryPart (p : Trial τ) :
    (fun k => (tryPart p k : Trial (Part ς τ k)).verdict) = comparePart p.verdict := by
  funext k
  match k with
  | 0 => exact Trial.verdict_ofComparison _
  | 1 => exact Trial.verdict_ofComparison _
  | 2 => exact Trial.verdict_ofComparison _
  | 3 => exact Trial.verdict_ofComparison _
  | 4 => exact Trial.verdict_pair p p
  | 5 => exact Trial.verdict_option p

/-- Where a trial is broken off, the comparison of so many layers finds the trees different. -/
theorem verdict_tryWithin (n : Nat) :
    (tryWithin n : Trial (Tree ς)).verdict = compareWithin n := by
  induction n with
  | zero => rfl
  | succ n ih =>
    have hlayer : (Trial.variant (tryPart (ς := ς) (tryWithin (ς := ς) n))).verdict =
        Comparison.variant (comparePart (compareWithin n)) := by
      rw [Trial.verdict_variant, verdict_tryPart, ih]
    rw [compareWithin, ← hlayer]
    rfl

theorem compare_eq_verdict (t u : Tree ς) : compare t u = (tryWithin t.depth).verdict t u := by
  rw [verdict_tryWithin]
  rfl

theorem decides_compare : (compare : Comparison (Tree ς)).Decides := by
  intro t u
  obtain ⟨b, hb, hbt⟩ := decidesAt_tryWithin (Nat.le_refl t.depth) u
  rw [compare_eq_verdict, Trial.verdict, hb]
  exact hbt

/-- A trial with enough calls is not broken off, and its verdict is the comparison. -/
theorem tryWithin_eq_some {n : Nat} {t : Tree ς} (h : t.depth ≤ n) (u : Tree ς) :
    tryWithin n t u = some (compare t u) := by
  obtain ⟨b, hb, hbt⟩ := decidesAt_tryWithin h u
  have hcompare : compare t u = b := by rw [Bool.eq_iff_iff, decides_compare, hbt]
  rw [hb, hcompare]

theorem decides_comparePart {c : Comparison (Tree ς)} (hc : c.Decides) :
    ∀ k, (comparePart c k : Comparison (Part ς (Tree ς) k)).Decides
  | 0 => .unit
  | 1 => .bool
  | 2 => Comparison.Decides.identity (α := Int64)
  | 3 => Comparison.Decides.identity (α := ς)
  | 4 => .pair hc hc
  | 5 => .option hc

/-- The comparison calls itself: trees are compared as variants whose parts hold trees compared in
the same way. -/
theorem compare_eq_along_layer :
    (compare : Comparison (Tree ς)) = (Comparison.variant (comparePart compare)).along layer := by
  have hlayer : ((Comparison.variant (comparePart (ς := ς) compare)).along layer).Decides :=
    .along (.variant (decides_comparePart decides_compare)) layer_injective
  exact decides_compare.unique hlayer

/-- **The comparison of trees comes to an end and decides identity.** It is the comparison that
calls itself through the variants, pairs and options of each layer. On any two trees, as many calls
inside one another as the left one is deep are enough for a verdict, and more make no difference.
The verdict is that the trees are the same exactly when they are identical, so that the comparison
is reflexive, symmetric and transitive. -/
theorem compare_ends_and_decides :
    (compare : Comparison (Tree ς)) = (Comparison.variant (comparePart compare)).along layer ∧
      (∀ (t u : Tree ς) n, t.depth ≤ n → tryWithin n t u = some (compare t u)) ∧
      (∀ t u : Tree ς, compare t u = true ↔ t = u) ∧
      (∀ t : Tree ς, compare t t = true) ∧ (compare : Comparison (Tree ς)).PartialEquivalence :=
  ⟨compare_eq_along_layer, fun _ u _ h => tryWithin_eq_some h u, decides_compare,
    decides_compare.refl, decides_compare.partialEquivalence⟩

/-- Texts may consist of any bytes, such as two that encode no character. -/
example : compare (pair unit (text [(0xFF : UInt8)])) (pair unit (text [0xFE])) = false := rfl

/-- A tree of three layers. -/
def threeLayers : Tree String := pair (int 1) (maybe (some (text "a")))

/-- Three calls tell a tree of three layers from one of two, and two calls leave it open whether it
is itself. -/
theorem compare_ends_and_decides_threeLayers :
    threeLayers.depth ≤ 3 ∧
      tryWithin 3 threeLayers (pair (int 1) (maybe none)) = some false ∧
      compare threeLayers threeLayers = true ∧ tryWithin 2 threeLayers threeLayers = none := by
  obtain ⟨-, hends, hdec, hrefl, -⟩ := compare_ends_and_decides (ς := String)
  have hdepth : threeLayers.depth ≤ 3 := by simp [threeLayers, depth]
  have hne : threeLayers ≠ pair (int 1) (maybe none) := by simp [threeLayers]
  refine ⟨hdepth, ?_, hrefl threeLayers, rfl⟩
  rw [hends _ _ _ hdepth, Bool.eq_false_iff.mpr fun h => hne ((hdec _ _).mp h)]

end Tree

end Sameness
