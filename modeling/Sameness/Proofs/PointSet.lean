import Sameness.PointSet
import Sameness.Proofs.Compound
import Sameness.Proofs.Sample.Agreement
import Sameness.Specimen

/-!
# What point sets can hold

An expression that is built from named points and set operations alone has one and the same answer
for all values that are the same as none of these points (`PointExpr.denote_eq_elsewhere`). Each set
operation is a Boolean operation on the answers, whether they are about a value that is named
somewhere or about the ones elsewhere, so that complements may stand at any depth and no operation
has to tell finite sets from cofinite ones. If the comparison decides identity, then the set
consists of the named points with the other answer, the **exceptions**, or of everything but them.

Let a comparison be symmetric and transitive. Values that are the same may then differ in what the
comparison does not look at, but not in whether they belong to a set of named points. Such a set is
**saturated** (`PointSet.Saturated`), set operations keep this, and so an expression over saturated
membership tests has a saturated set (`PointExpr.saturated_denote`):

* **Named points** stand on the right of the comparison, where the same values compare alike
  (`Comparison.PartialEquivalence.congr_left`). This takes symmetry and transitivity, and everything
  else follows from it.
* **Products** are over a comparison of pairs. Nothing is assumed of the comparisons of the
  components. That they are symmetric and transitive as well can be seen from any two pairs that are
  the same (`Comparison.PartialEquivalence.of_pair_left`), and without such pairs there is nothing
  to show.

Conversely, expressions tell apart all other values, up to those that are not the same as
themselves.

An edit is **about** every value that is the same as its point. After a run of edits, a value is in
the set if the last edit about it adds its point, and is not if that edit removes it; a value that
no edit is about is where it was before (`Edit.applyAll_apply`). The comparison may be any. It
always has the value on its left and the point of the edit on its right, so that under an order a
single point stands for all the values below it. Additions alone join their points to the set, in
any order, and removal after addition of one point restores the set, except for the values that both
edits are about.
-/

namespace Sameness

/-! ### Exceptions -/

namespace PointExpr

variable {α : Type} {c : Comparison α} {p : PointExpr c} {x : α}

/-- **Elsewhere.** To a value that is the same as no named point, a pointwise expression answers as
it does elsewhere. The comparison may be any. -/
theorem denote_eq_elsewhere (hp : p.Pointwise) (hx : ∀ a ∈ p.mentioned, c x a = false) :
    p.denote x = p.elsewhere := by
  induction p with
  | test p => exact hp.elim
  | const b => rfl
  | ofList as =>
    rw [denote, PointSet.ofList_apply, elsewhere, List.any_eq_false]
    intro a ha
    exact Bool.eq_false_iff.mp (hx a ha)
  | @allBut α c a =>
    have ha : c x a = false := hx a (List.mem_singleton_self a)
    rw [denote, PointSet.allBut_apply, ha, elsewhere, Bool.not_false]
  -- the point of an edit is not `x`, and leaves the answer to the set that is edited
  | insert a p ih =>
    obtain ⟨ha, hrest⟩ := List.forall_mem_cons.mp hx
    rw [denote, PointSet.insert_apply, ha, Bool.false_or, ih hp hrest, elsewhere]
  | erase p a ih =>
    obtain ⟨ha, hrest⟩ := List.forall_mem_cons.mp hx
    rw [denote, PointSet.erase_apply, ha, Bool.not_false, Bool.true_and, ih hp hrest, elsewhere]
  | complement p ih => rw [denote, PointSet.complement_apply, ih hp hx, elsewhere]
  | union p q ihp ihq =>
    obtain ⟨hxp, hxq⟩ := List.forall_mem_append.mp hx
    rw [denote, PointSet.union_apply, ihp hp.1 hxp, ihq hp.2 hxq, elsewhere]
  | inter p q ihp ihq =>
    obtain ⟨hxp, hxq⟩ := List.forall_mem_append.mp hx
    rw [denote, PointSet.inter_apply, ihp hp.1 hxp, ihq hp.2 hxq, elsewhere]
  | product p q => exact hp.elim

/-- The exceptions are named. -/
theorem mem_mentioned_of_mem_exceptions (hx : x ∈ p.exceptions) : x ∈ p.mentioned :=
  (List.mem_filter.mp hx).1

/-- Under a comparison that decides identity, no other value is answered otherwise than
elsewhere. -/
theorem mem_exceptions_iff (hc : c.Decides) (hp : p.Pointwise) :
    x ∈ p.exceptions ↔ p.denote x ≠ p.elsewhere := by
  rw [exceptions, List.mem_filter, bne_iff_ne]
  refine and_iff_right_of_imp fun hne => ?_
  by_contra hx
  have hother : ∀ a ∈ p.mentioned, c x a = false := (Sample.forall_eq_false_iff_notMem hc).mpr hx
  exact hne (denote_eq_elsewhere hp hother)

/-- **Pointwise sets are finite or cofinite.** Let a comparison decide identity. For every
expression, of any depth, that is built from points and set operations there is a finite list of
points named in it such that the set of the expression is either the set of these points or
everything else. -/
theorem finite_or_cofinite (hc : c.Decides) (p : PointExpr c) (hp : p.Pointwise) :
    ∃ L : List α, (∀ a ∈ L, a ∈ p.mentioned) ∧
      ((∀ x, p.denote x = true ↔ x ∈ L) ∨ ∀ x, p.denote x = true ↔ x ∉ L) := by
  have hexc : ∀ x, x ∈ p.exceptions ↔ p.denote x ≠ p.elsewhere := fun _ => mem_exceptions_iff hc hp
  refine ⟨p.exceptions, fun _ => mem_mentioned_of_mem_exceptions, ?_⟩
  rcases helse : p.elsewhere with _ | _
  · refine .inl fun x => ?_
    rw [hexc, helse, Bool.ne_false_iff]
  · refine .inr fun x => ?_
    rw [hexc, helse, Ne, not_not]

/-- Everything but five and what is left of one and two when two is removed. -/
def butOneAndFive : PointExpr (Comparison.identity : Comparison Int32) :=
  .complement (.insert 5 (.erase (.ofList [1, 2, 2]) 2))

/-- Two is named three times and makes no difference in the end. -/
theorem finite_or_cofinite_butOneAndFive :
    (Comparison.identity : Comparison Int32).Decides ∧ butOneAndFive.Pointwise ∧
      (∃ L : List Int32, (∀ a ∈ L, a ∈ [5, 2, 1, 2, 2]) ∧
        ((∀ x, butOneAndFive.denote x = true ↔ x ∈ L) ∨
          ∀ x, butOneAndFive.denote x = true ↔ x ∉ L)) ∧
      butOneAndFive.denote 5 = false ∧ butOneAndFive.denote 1 = false ∧
      butOneAndFive.denote 2 = true :=
  have hc : (Comparison.identity : Comparison Int32).Decides := .identity
  have hp : butOneAndFive.Pointwise := trivial
  ⟨hc, hp, finite_or_cofinite hc butOneAndFive hp, by decide, by decide, by decide⟩

end PointExpr

section Saturation

variable {α β : Type} {c : Comparison α} {d : Comparison β}

/-! ### Comparisons of pairs and of their components -/

namespace Comparison

theorem pair_eq_along_swap (c : Comparison α) (d : Comparison β) :
    d.pair c = (c.pair d).along Prod.swap := by
  funext u v
  exact Bool.and_comm _ _

namespace PartialEquivalence

protected theorem pair (hc : c.PartialEquivalence) (hd : d.PartialEquivalence) :
    (c.pair d).PartialEquivalence := by
  refine ⟨fun h => ?_, fun h₁ h₂ => ?_⟩
  · obtain ⟨hx, hy⟩ := pair_eq_true_iff.mp h
    exact pair_eq_true_iff.mpr ⟨hc.symm hx, hd.symm hy⟩
  · obtain ⟨hx₁, hy₁⟩ := pair_eq_true_iff.mp h₁
    obtain ⟨hx₂, hy₂⟩ := pair_eq_true_iff.mp h₂
    exact pair_eq_true_iff.mpr ⟨hc.trans hx₁ hx₂, hd.trans hy₁ hy₂⟩

/-- From the comparison of pairs to that of the first components. Two second components that are the
same, one way round or the other, fill up the pairs. -/
theorem of_pair_left (h : (c.pair d).PartialEquivalence) {y y' : β} (hy : d y y' = true) :
    c.PartialEquivalence := by
  have hpair : ∀ {x x' : α} {z z' : β}, c x x' = true → d z z' = true →
      c.pair d (x, z) (x', z') = true := fun hx hz => pair_eq_true_iff.mpr ⟨hx, hz⟩
  have hback : ∀ {x x' : α}, c x x' = true → c x' x = true ∧ d y' y = true := fun hx =>
    pair_eq_true_iff.mp (h.symm (hpair hx hy))
  refine ⟨fun hx => (hback hx).1, fun hx hx' => ?_⟩
  obtain ⟨-, hy'⟩ := hback hx
  exact (pair_eq_true_iff.mp (h.trans (hpair hx hy) (hpair hx' hy'))).1

/-- From the comparison of pairs to that of the second components. -/
theorem of_pair_right (h : (c.pair d).PartialEquivalence) {x x' : α} (hx : c x x' = true) :
    d.PartialEquivalence := by
  have hswap : (d.pair c).PartialEquivalence := by
    rw [pair_eq_along_swap]
    exact h.along Prod.swap
  exact hswap.of_pair_left hx

end PartialEquivalence

end Comparison

/-! ### Saturated sets -/

namespace PointSet.Saturated

variable {p q : PointSet α}

protected theorem complement (hp : p.Saturated c) : p.complement.Saturated c := by
  intro x y h
  rw [complement_apply, complement_apply, hp h]

protected theorem union (hp : p.Saturated c) (hq : q.Saturated c) : (p.union q).Saturated c := by
  intro x y h
  rw [union_apply, union_apply, hp h, hq h]

protected theorem inter (hp : p.Saturated c) (hq : q.Saturated c) : (p.inter q).Saturated c := by
  intro x y h
  rw [inter_apply, inter_apply, hp h, hq h]

/-- A product is saturated for the comparison of pairs. -/
protected theorem product {q : PointSet β} (hp : p.Saturated c) (hq : q.Saturated d) :
    (p.product q).Saturated (c.pair d) := by
  intro u v h
  obtain ⟨hfst, hsnd⟩ := Comparison.pair_eq_true_iff.mp h
  rw [product_apply, product_apply, hp hfst, hq hsnd]

protected theorem ofList (hc : c.PartialEquivalence) (as : List α) :
    (PointSet.ofList c as).Saturated c := by
  intro x y h
  simp only [ofList_apply, hc.congr_left h]

protected theorem allBut (hc : c.PartialEquivalence) (a : α) :
    (PointSet.allBut c a).Saturated c := by
  intro x y h
  rw [allBut_apply, allBut_apply, hc.congr_left h]

protected theorem insert (hc : c.PartialEquivalence) (a : α) (hp : p.Saturated c) :
    (PointSet.insert c a p).Saturated c := by
  intro x y h
  rw [insert_apply, insert_apply, hc.congr_left h, hp h]

protected theorem erase (hc : c.PartialEquivalence) (hp : p.Saturated c) (a : α) :
    (PointSet.erase c p a).Saturated c := by
  intro x y h
  rw [erase_apply, erase_apply, hc.congr_left h, hp h]

end PointSet.Saturated

/-! ### Saturated expressions -/

namespace PointExpr

/-- **The set of an expression is saturated** if the membership tests given in it are. -/
theorem saturated_denote (hc : c.PartialEquivalence) {p : PointExpr c} (hp : p.TestsSaturated) :
    p.denote.Saturated c := by
  induction p with
  | test p => exact hp
  | const b => exact fun _ _ _ => rfl
  | ofList as => exact .ofList hc as
  | allBut a => exact .allBut hc a
  | insert a p ih => exact .insert hc a (ih hc hp)
  | erase p a ih => exact .erase hc (ih hc hp) a
  | complement p ih => exact .complement (ih hc hp)
  | union p q ihp ihq => exact .union (ihp hc hp.1) (ihq hc hp.2)
  | inter p q ihp ihq => exact .inter (ihp hc hp.1) (ihq hc hp.2)
  | product p q ihp ihq =>
    -- the induction hypotheses are for the comparisons of the components, which the two pairs that
    -- are the same show to be symmetric and transitive
    intro u v huv
    obtain ⟨hfst, hsnd⟩ := Comparison.pair_eq_true_iff.mp huv
    have hset := PointSet.Saturated.product (ihp (hc.of_pair_left hsnd) hp.1)
      (ihq (hc.of_pair_right hfst) hp.2)
    exact hset huv

/-- **Values that are the same have the same answers.** Let a comparison be symmetric and
transitive. An expression, of any depth, over membership tests that answer alike to values that are
the same, answers alike to values that are the same. Conversely, if no such expression tells a value
from one that is the same as itself, then the two are the same. -/
theorem same_answers_of_same (hc : c.PartialEquivalence) :
    (∀ p : PointExpr c, p.TestsSaturated → ∀ x y, c x y = true → p.denote x = p.denote y) ∧
      ∀ x y, c y y = true →
        (∀ p : PointExpr c, p.TestsSaturated → p.denote x = p.denote y) → c x y = true := by
  refine ⟨fun p hp x y h => saturated_denote hc hp h, fun x y hy halike => ?_⟩
  -- the set of the one point `y` has `y` in it
  have hpoint : PointSet.ofList c [y] x = PointSet.ofList c [y] y := halike (.ofList [y]) trivial
  simpa [hy] using hpoint

/-- Pairs of keyed records: those with a first key that is not negative and a second one that is not
three, and besides them the pair of twice minus one. -/
def keyedPairs : PointExpr (Keyed.compare.pair Keyed.compare) :=
  .union (.product (.test fun k => decide (0 ≤ k.key)) (.allBut ⟨3, 0⟩))
    (.ofList [(⟨-1, 0⟩, ⟨-1, 0⟩)])

/-- The notes take part in nothing, neither in the test and the points nor at either side of the
product. -/
theorem same_answers_of_same_keyedPairs :
    (Keyed.compare.pair Keyed.compare).PartialEquivalence ∧ keyedPairs.TestsSaturated ∧
      Keyed.compare.pair Keyed.compare (⟨7, 1⟩, ⟨4, 1⟩) (⟨7, 2⟩, ⟨4, 2⟩) = true ∧
      keyedPairs.denote (⟨7, 1⟩, ⟨4, 1⟩) = true ∧ keyedPairs.denote (⟨7, 2⟩, ⟨4, 2⟩) = true ∧
      Keyed.compare.pair Keyed.compare (⟨7, 2⟩, ⟨4, 2⟩) (⟨7, 2⟩, ⟨4, 2⟩) = true ∧
      (∀ p : PointExpr (Keyed.compare.pair Keyed.compare), p.TestsSaturated →
        p.denote (⟨7, 1⟩, ⟨4, 1⟩) = p.denote (⟨7, 2⟩, ⟨4, 2⟩)) ∧
      Keyed.compare.pair Keyed.compare (⟨7, 1⟩, ⟨4, 1⟩) (⟨7, 2⟩, ⟨4, 2⟩) = true := by
  have hkey : Keyed.compare.PartialEquivalence :=
    (Comparison.Decides.identity.partialEquivalence).along Keyed.key
  have hc : (Keyed.compare.pair Keyed.compare).PartialEquivalence := hkey.pair hkey
  have htest : keyedPairs.TestsSaturated := by
    refine ⟨⟨fun x y h => ?_, trivial⟩, trivial⟩
    have hxy : x.key = y.key := Comparison.identity_eq_true_iff.mp h
    exact congrArg (fun n : Int32 => decide (0 ≤ n)) hxy
  have hsame : Keyed.compare.pair Keyed.compare (⟨7, 1⟩, ⟨4, 1⟩) (⟨7, 2⟩, ⟨4, 2⟩) = true := by
    decide
  have hself : Keyed.compare.pair Keyed.compare (⟨7, 2⟩, ⟨4, 2⟩) (⟨7, 2⟩, ⟨4, 2⟩) = true := by
    decide
  obtain ⟨hanswers, hconverse⟩ := same_answers_of_same hc
  have hall : ∀ p : PointExpr (Keyed.compare.pair Keyed.compare), p.TestsSaturated →
      p.denote (⟨7, 1⟩, ⟨4, 1⟩) = p.denote (⟨7, 2⟩, ⟨4, 2⟩) := fun p hp => hanswers p hp _ _ hsame
  have hleft : keyedPairs.denote (⟨7, 1⟩, ⟨4, 1⟩) = true := by decide
  have hright : keyedPairs.denote (⟨7, 2⟩, ⟨4, 2⟩) = true :=
    (hanswers keyedPairs htest _ _ hsame).symm.trans hleft
  exact ⟨hc, htest, hsame, hleft, hright, hself, hall, hconverse _ _ hself hall⟩

end PointExpr

end Saturation

namespace Edit

variable {α : Type} {c : Comparison α} {p : PointSet α} {x : α} {edits : List (Edit α)}

/-! ### The last edit about a value -/

theorem lastAbout?_cons (e : Edit α) (edits : List (Edit α)) :
    lastAbout? c x (e :: edits) =
      (lastAbout? c x edits).or (if c x e.point then some e else none) := by
  rw [lastAbout?, lastAbout?, List.filter_cons]
  split
  · rw [List.getLast?_cons]
    cases (edits.filter fun e => c x e.point).getLast? <;> rfl
  · rw [Option.or_none]

theorem lastAbout?_eq_none_iff :
    lastAbout? c x edits = none ↔ ∀ e ∈ edits, c x e.point = false := by
  simp [lastAbout?]

theorem mem_of_lastAbout?_eq_some {e : Edit α} (h : lastAbout? c x edits = some e) :
    e ∈ edits ∧ c x e.point = true := List.mem_filter.mp (List.mem_of_getLast? h)

/-! ### One edit and a run of them -/

/-- **One edit** decides about the values that are the same as its point, and about no others. -/
theorem apply_apply (e : Edit α) : e.apply c p x = if c x e.point then e.adds else p x := by
  cases e with
  | add a =>
    rw [apply, PointSet.insert_apply, point, adds]
    cases c x a <;> rfl
  | remove a =>
    rw [apply, PointSet.erase_apply, point, adds]
    cases c x a <;> rfl

/-- **A run of edits** leaves each value to the last edit about it. -/
theorem applyAll_apply (edits : List (Edit α)) :
    applyAll c p edits x = (lastAbout? c x edits).elim (p x) adds := by
  induction edits generalizing p with
  | nil => rfl
  | cons e edits ih =>
    -- the first edit changes the set that the others fall back on
    have hrun : applyAll c p (e :: edits) x =
        (lastAbout? c x edits).elim (e.apply c p x) adds := ih
    rw [hrun, apply_apply, lastAbout?_cons]
    cases lastAbout? c x edits with
    | none => split <;> rfl
    | some last => rfl

/-- A run of additions joins their points to the set. -/
theorem applyAll_add (as : List α) :
    applyAll c p (as.map add) = (PointSet.ofList c as).union p := by
  funext x
  rw [applyAll_apply, PointSet.union_apply]
  cases h : lastAbout? c x (as.map add) with
  | none =>
    have hnone : PointSet.ofList c as x = false := by
      rw [PointSet.ofList_apply, List.any_eq_false]
      intro a ha
      exact Bool.eq_false_iff.mp (lastAbout?_eq_none_iff.mp h _ (List.mem_map_of_mem ha))
    rw [hnone, Bool.false_or, Option.elim_none]
  | some e =>
    obtain ⟨he, hx⟩ := mem_of_lastAbout?_eq_some h
    obtain ⟨a, ha, rfl⟩ := List.mem_map.mp he
    have hsome : PointSet.ofList c as x = true := List.any_eq_true.mpr ⟨a, ha, hx⟩
    rw [hsome, Bool.true_or, Option.elim_some, adds]

/-- **The last edit wins**, whatever the comparison: after a run of edits, a value is in the set if
the last edit whose point it is the same as is an addition, is not in it if that edit is a removal,
and is where it was if there is no such edit. A finite set is therefore made from nothing by adding
its points in any order, and to add a point and remove it again is to change nothing about the
values that are not the same as it. -/
theorem last_edit_wins (c : Comparison α) :
    (∀ p edits x, applyAll c p edits x = (lastAbout? c x edits).elim (p x) adds) ∧
      (∀ as bs, List.Perm bs as →
        applyAll c (fun _ => false) (bs.map add) = PointSet.ofList c as) ∧
      ∀ p a x, c x a = false → PointSet.erase c (.insert c a p) a x = p x := by
  refine ⟨fun _ edits _ => applyAll_apply edits, fun as bs hperm => ?_, fun p a x hx => ?_⟩
  · funext x
    rw [applyAll_add, PointSet.union_apply, Bool.or_false]
    exact hperm.any_eq
  · -- the two edits make a run, and neither of them is about `x`
    have hnone : lastAbout? c x [add a, remove a] = none := by
      rw [lastAbout?_eq_none_iff]
      simp [point, hx]
    have hrun : applyAll c p [add a, remove a] x = p x := by
      rw [applyAll_apply, hnone, Option.elim_none]
    exact hrun

/-- The numbers up to five are added, and those up to two removed. -/
def betweenTwoAndFive : List (Edit AtMost) := [.add ⟨5⟩, .remove ⟨2⟩]

/-- Under an order an edit is about all the numbers up to its point, and about none above it. Here
these join the number nine, or else nothing. -/
theorem last_edit_wins_betweenTwoAndFive :
    applyAll AtMost.compare (fun x => x.value == 9) betweenTwoAndFive ⟨3⟩ = true ∧
      applyAll AtMost.compare (fun x => x.value == 9) betweenTwoAndFive ⟨1⟩ = false ∧
      applyAll AtMost.compare (fun x => x.value == 9) betweenTwoAndFive ⟨9⟩ = true ∧
      List.Perm [(⟨6⟩ : AtMost), ⟨4⟩, ⟨4⟩] [⟨4⟩, ⟨6⟩, ⟨4⟩] ∧
      applyAll AtMost.compare (fun _ => false) [.add ⟨6⟩, .add ⟨4⟩, .add ⟨4⟩] =
        PointSet.ofList AtMost.compare [⟨4⟩, ⟨6⟩, ⟨4⟩] ∧
      AtMost.compare ⟨9⟩ ⟨5⟩ = false ∧
      PointSet.erase AtMost.compare (.insert AtMost.compare ⟨5⟩ fun x => x.value == 9) ⟨5⟩ ⟨9⟩ =
        true := by
  obtain ⟨hlast, horder, hundo⟩ := last_edit_wins AtMost.compare
  have hperm : List.Perm [(⟨6⟩ : AtMost), ⟨4⟩, ⟨4⟩] [⟨4⟩, ⟨6⟩, ⟨4⟩] := by decide
  have hnine : AtMost.compare ⟨9⟩ ⟨5⟩ = false := by decide
  exact ⟨(hlast _ _ _).trans (by decide), (hlast _ _ _).trans (by decide),
    (hlast _ _ _).trans (by decide), hperm, horder _ _ hperm, hnine,
    (hundo _ _ _ hnine).trans (by decide)⟩

end Edit

end Sameness
